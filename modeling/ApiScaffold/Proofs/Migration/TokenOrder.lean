import Mathlib
import ApiScaffold.Proofs.Migration.Success

/-! When tokens sort in the order in which they are issued. Decimals of one length compare as their
numbers do, so padded counters ascend as long as none outgrows the length of the first; the counter
that does comes before its predecessor. -/

namespace ApiScaffold

/-! ### Decimals as texts -/

theorem ofDigitChars_cons_zero (c : Char) (rest : List Char) :
    Nat.ofDigitChars 10 (c :: rest) 0 =
      10 ^ rest.length * (c.toNat - '0'.toNat) + Nat.ofDigitChars 10 rest 0 := by
  rw [Nat.ofDigitChars_cons, Nat.ofDigitChars_eq_ofDigitChars_zero, mul_zero, zero_add]

/-- A decimal is below the power of ten of its length. -/
theorem ofDigitChars_lt_pow {digits : List Char} (h : ∀ c ∈ digits, c.isDigit = true) :
    Nat.ofDigitChars 10 digits 0 < 10 ^ digits.length := by
  induction digits with
  | nil => exact Nat.one_pos
  | cons c rest ih =>
      obtain ⟨hc, hrest⟩ := List.forall_mem_cons.mp h
      have hdigit : c.toNat - '0'.toNat ≤ 9 := Nat.sub_le_sub_right (Char.isDigit_iff_toNat.mp hc).2 48
      have hbelow := ih hrest
      rw [ofDigitChars_cons_zero, List.length_cons]
      calc 10 ^ rest.length * (c.toNat - '0'.toNat) + Nat.ofDigitChars 10 rest 0
          < 10 ^ rest.length * 9 + 10 ^ rest.length :=
            Nat.add_lt_add_of_le_of_lt (Nat.mul_le_mul_left _ hdigit) hbelow
        _ = 10 ^ (rest.length + 1) := by ring

/-- Decimals of one length compare as their numbers do. -/
theorem digits_lt_iff {digits others : List Char} (hdigits : ∀ c ∈ digits, c.isDigit = true)
    (hothers : ∀ c ∈ others, c.isDigit = true) (hlength : digits.length = others.length) :
    digits < others ↔ Nat.ofDigitChars 10 digits 0 < Nat.ofDigitChars 10 others 0 := by
  induction digits generalizing others with
  | nil => simp [List.length_eq_zero_iff.mp hlength.symm]
  | cons c rest ih =>
      cases others with
      | nil => cases hlength
      | cons d rest' =>
          obtain ⟨hc, hrest⟩ := List.forall_mem_cons.mp hdigits
          obtain ⟨hd, hrest'⟩ := List.forall_mem_cons.mp hothers
          have hlengths : rest.length = rest'.length := Nat.succ.inj hlength
          have hbelow := ofDigitChars_lt_pow hrest
          have hbelow' := ofDigitChars_lt_pow hrest'
          have hleast : '0'.toNat ≤ c.toNat := (Char.isDigit_iff_toNat.mp hc).1
          have hleast' : '0'.toNat ≤ d.toNat := (Char.isDigit_iff_toNat.mp hd).1
          rw [List.cons_lt_cons_iff, ih hrest hrest' hlengths, ofDigitChars_cons_zero,
            ofDigitChars_cons_zero, hlengths]
          rw [hlengths] at hbelow
          -- The first digits decide, whatever follows: a place is worth more than all behind it.
          rcases lt_trichotomy c d with hlt | rfl | hgt
          · have hplace : 10 ^ rest'.length * (c.toNat - '0'.toNat + 1) ≤
                10 ^ rest'.length * (d.toNat - '0'.toNat) := by
              apply Nat.mul_le_mul_left
              have hvalue : c.toNat < d.toNat := hlt
              omega
            rw [mul_add, mul_one] at hplace
            exact iff_of_true (Or.inl hlt) (by omega)
          · simp
          · have hplace : 10 ^ rest'.length * (d.toNat - '0'.toNat + 1) ≤
                10 ^ rest'.length * (c.toNat - '0'.toNat) := by
              apply Nat.mul_le_mul_left
              have hvalue : d.toNat < c.toNat := hgt
              omega
            rw [mul_add, mul_one] at hplace
            refine iff_of_false ?_ (by omega)
            rintro (hlt | ⟨rfl, -⟩)
            · exact lt_asymm hlt hgt
            · exact lt_irrefl _ hgt

/-- What comes first stays first, whatever is put behind two lists of one length. -/
theorem append_lt_append_of_lt {front front' : List Char} (h : front < front')
    (hlength : front.length = front'.length) (rest rest' : List Char) :
    front ++ rest < front' ++ rest' := by
  induction front generalizing front' with
  | nil =>
      rw [List.length_eq_zero_iff.mp hlength.symm] at h
      exact absurd h (List.lt_irrefl _)
  | cons c front ih =>
      cases front' with
      | nil => cases hlength
      | cons d front' =>
          rw [List.cons_append, List.cons_append, List.cons_lt_cons_iff]
          rcases List.cons_lt_cons_iff.mp h with hlt | ⟨rfl, hrest⟩
          · exact Or.inl hlt
          · exact Or.inr ⟨rfl, ih hrest (Nat.succ.inj hlength)⟩

theorem append_lt_append_iff (front rest rest' : List Char) :
    front ++ rest < front ++ rest' ↔ rest < rest' := by
  induction front with
  | nil => rfl
  | cons c front ih => rw [List.cons_append, List.cons_append, List.cons_lt_cons_self, ih]

/-! ### Padded numbers -/

theorem length_zeroPadded (width n : Nat) :
    (zeroPadded width n).toList.length = max width (Nat.toDigits 10 n).length := by
  rw [zeroPadded, String.toList_append, String.toList_ofList, Nat.toList_repr, List.length_append,
    List.length_replicate, ← String.length_toList, Nat.toList_repr]
  omega

/-- Padded numbers of one length compare as numbers. -/
theorem zeroPadded_lt_iff {width m n : Nat}
    (hlength : max width (Nat.toDigits 10 m).length = max width (Nat.toDigits 10 n).length) :
    zeroPadded width m < zeroPadded width n ↔ m < n := by
  rw [String.lt_iff_toList_lt, digits_lt_iff (fun _ => isDigit_of_mem_zeroPadded)
    (fun _ => isDigit_of_mem_zeroPadded), ofDigitChars_zeroPadded, ofDigitChars_zeroPadded]
  rw [length_zeroPadded, length_zeroPadded, hlength]

/-- All numbers from one on have its padded length, up to the power of ten of that length. -/
theorem length_toDigits_of_between {width m n : Nat} (hle : m ≤ n)
    (hlt : n < 10 ^ max width (Nat.toDigits 10 m).length) :
    max width (Nat.toDigits 10 n).length = max width (Nat.toDigits 10 m).length := by
  have hpos : 0 < max width (Nat.toDigits 10 m).length :=
    lt_of_lt_of_le Nat.length_toDigits_pos (le_max_right _ _)
  have hmost := (Nat.length_toDigits_le_iff (by decide) hpos).mpr hlt
  have hleast : (Nat.toDigits 10 m).length ≤ (Nat.toDigits 10 n).length := by
    rw [Nat.length_toDigits_le_iff (by decide) Nat.length_toDigits_pos]
    exact lt_of_le_of_lt hle ((Nat.length_toDigits_le_iff (by decide) Nat.length_toDigits_pos).mp le_rfl)
  omega

/-- The first number that is too long for the length of its predecessor does not come after it. -/
theorem zeroPadded_carry {width n : Nat}
    (hcarry : n + 1 = 10 ^ max width (Nat.toDigits 10 n).length) :
    ¬zeroPadded width n < zeroPadded width (n + 1) := by
  obtain ⟨length, hlength⟩ : ∃ length, max width (Nat.toDigits 10 n).length = length := ⟨_, rfl⟩
  have hpos : 0 < length := hlength ▸ lt_of_lt_of_le Nat.length_toDigits_pos (le_max_right _ _)
  rw [hlength] at hcarry
  have hlonger : max width (Nat.toDigits 10 (n + 1)).length = length + 1 := by
    have hmost : (Nat.toDigits 10 (n + 1)).length ≤ length + 1 := by
      rw [Nat.length_toDigits_le_iff (by decide) (Nat.succ_pos length), hcarry]
      exact Nat.pow_lt_pow_right (by decide) (Nat.lt_succ_self length)
    have hleast : ¬(Nat.toDigits 10 (n + 1)).length ≤ length := by
      rw [Nat.length_toDigits_le_iff (by decide) hpos, hcarry]
      exact lt_irrefl _
    omega
  have hten : 10 ≤ n + 1 := hcarry ▸ Nat.le_self_pow hpos.ne' 10
  -- All but the last digit of the longer text are as many as its predecessor has, and a smaller number.
  obtain hnil | ⟨front, last, hsplit⟩ := List.eq_nil_or_concat (zeroPadded width (n + 1)).toList
  · have hnone := length_zeroPadded width (n + 1)
    rw [hnil, hlonger] at hnone
    cases hnone
  · rw [List.concat_eq_append] at hsplit
    have hlengths := length_zeroPadded width (n + 1)
    have hvalue := ofDigitChars_zeroPadded width (n + 1)
    rw [hsplit, hlonger, List.length_append, List.length_singleton] at hlengths
    rw [hsplit, Nat.ofDigitChars_append, Nat.ofDigitChars_cons, Nat.ofDigitChars_nil] at hvalue
    have hfront : front < (zeroPadded width n).toList := by
      rw [digits_lt_iff, ofDigitChars_zeroPadded]
      · omega
      · intro c hc
        apply @isDigit_of_mem_zeroPadded width (n + 1)
        rw [hsplit]
        exact List.mem_append_left _ hc
      · exact fun c => isDigit_of_mem_zeroPadded
      · rw [length_zeroPadded, hlength]
        omega
    have hbefore := append_lt_append_of_lt hfront
      (by rw [length_zeroPadded, hlength]; omega) [last] []
    rw [List.append_nil, ← hsplit, ← String.lt_iff_toList_lt] at hbefore
    exact lt_asymm hbefore

namespace Sequence

/-! ### Tokens in order -/

theorem tokenAt_lt_iff {sequence : Sequence} {m n : Nat} :
    sequence.tokenAt m < sequence.tokenAt n ↔
      zeroPadded sequence.width.toNat m < zeroPadded sequence.width.toNat n := by
  have hpadded : ∀ k : Nat, paddedText sequence.width.toNat k = zeroPadded sequence.width.toNat k :=
    fun k => if_neg (not_lt.mpr (Int.natCast_nonneg k))
  have htext : ∀ k : Nat, (sequence.tokenAt k).toList =
      (sequence.stamp ++ "_").toList ++ (zeroPadded sequence.width.toNat k).toList := by
    intro k
    rw [tokenAt, hpadded, String.toList_append]
  rw [String.lt_iff_toList_lt, htext, htext, append_lt_append_iff, ← String.lt_iff_toList_lt]

/-- Takes as many tokens, one after another. -/
def issueTokens : Nat → Issuing (List String)
  | 0 => pure []
  | count + 1 => do
    let token ← issueToken
    let tokens ← issueTokens count
    return token :: tokens

variable {before after : Sequence} {count : Nat} {tokens : List String}

theorem run_issueToken_eq_ok {token : String} :
    run issueToken before = (.ok token, after) ↔
      before.token = .ok token ∧ after = before.advance token := by
  rw [run_issueToken]
  cases before.token with
  | error fault => simp
  | ok first =>
      constructor
      · intro h
        cases h
        exact ⟨rfl, rfl⟩
      · rintro ⟨hfirst, rfl⟩
        cases hfirst
        rfl

/-- What a run of so many steps gives are so many tokens in a row. -/
theorem run_issueTokens_eq_ok :
    run (issueTokens count) before = (.ok tokens, after) ↔
      Taken before tokens after ∧ tokens.length = count := by
  induction count generalizing before tokens with
  | zero =>
      rw [issueTokens, run_pure, List.length_eq_zero_iff]
      constructor
      · intro h
        cases h
        exact ⟨.nil, rfl⟩
      · rintro ⟨htaken, rfl⟩
        cases htaken
        rfl
  | succ count ih =>
      rw [issueTokens, run_bind_eq_ok]
      constructor
      · rintro ⟨token, between, hfirst, hrest⟩
        obtain ⟨htoken, rfl⟩ := run_issueToken_eq_ok.mp hfirst
        obtain ⟨others, last, hothers, hpure⟩ := run_bind_eq_ok.mp hrest
        cases hpure
        obtain ⟨htaken, hlength⟩ := ih.mp hothers
        exact ⟨.cons htoken htaken, congrArg Nat.succ hlength⟩
      · rintro ⟨htaken, hlength⟩
        cases htaken with
        | nil => cases hlength
        | cons htoken hothers =>
            exact ⟨_, _, run_issueToken_eq_ok.mpr ⟨htoken, rfl⟩,
              run_bind_eq_ok.mpr ⟨_, _, ih.mpr ⟨hothers, Nat.succ.inj hlength⟩, rfl⟩⟩

/-- Tokens are given as long as the width is in bounds and the last counter can be written. -/
theorem canIssue_from_iff {stamp : String} {start width : Nat} {issued : List String}
    (hcount : 1 ≤ count) :
    CanIssue ⟨stamp, start, width, issued⟩ count ↔
      (width : Int) < memoryBound ∧ start + count - 1 < integerTextBound := by
  simp only [canIssue_iff, Int.natCast_nonneg, true_and, hasIntegerText, decide_eq_true_eq]
  constructor
  · intro h
    have hlast := h (count - 1) (by omega)
    exact ⟨hlast.1, by omega⟩
  · rintro ⟨hwidth, hlast⟩ i hi
    exact ⟨hwidth, by omega⟩

/-- Tokens in a row ascend exactly if their padded counters do. -/
theorem Taken.pairwise_lt_iff {start : Nat} (h : Taken before tokens after)
    (hstart : before.next = start) :
    tokens.Pairwise (· < ·) ↔ ∀ i j, i < j → j < tokens.length →
      zeroPadded before.width.toNat (start + i) < zeroPadded before.width.toNat (start + j) := by
  have hcounter : ∀ i : Nat, before.next + i = ((start + i : Nat) : Int) := by
    intro i
    rw [hstart, Nat.cast_add]
  conv_lhs => rw [h.eq_map]
  rw [List.pairwise_map, List.pairwise_iff_getElem]
  simp only [List.length_range, List.getElem_range, hcounter, tokenAt_lt_iff]
  constructor
  · exact fun hall i j hij hj => hall i j (hij.trans hj) hj hij
  · exact fun hall i j _ hj hij => hall i j hij hj

/-- Tokens in a row ascend exactly if no counter outgrows the padded length of the first. -/
theorem Taken.ascend_iff {start width : Nat} (h : Taken before tokens after)
    (hstart : before.next = start) (hwidth : before.width = width) :
    tokens.Pairwise (· < ·) ↔
      start + tokens.length - 1 < 10 ^ max width (Nat.toDigits 10 start).length := by
  have hfirst : start < 10 ^ max width (Nat.toDigits 10 start).length :=
    lt_of_lt_of_le ((Nat.length_toDigits_le_iff (by decide) Nat.length_toDigits_pos).mp le_rfl)
      (Nat.pow_le_pow_right (by decide) (le_max_right _ _))
  have hlength : ∀ n, start ≤ n → n < 10 ^ max width (Nat.toDigits 10 start).length →
      max width (Nat.toDigits 10 n).length = max width (Nat.toDigits 10 start).length :=
    fun n => length_toDigits_of_between
  rw [h.pairwise_lt_iff hstart, hwidth, Int.toNat_natCast]
  constructor
  · -- The last counter of the padded length has a successor in the row otherwise.
    intro hall
    by_contra hbeyond
    obtain ⟨last, hlast⟩ : ∃ last, last + 1 = 10 ^ max width (Nat.toDigits 10 start).length :=
      ⟨_, Nat.sub_add_cancel (Nat.pow_pos (by decide))⟩
    rw [← hlast] at hfirst hbeyond
    have hcarry := hall (last - start) (last + 1 - start) (by omega) (by omega)
    rw [Nat.add_sub_cancel' (by omega), Nat.add_sub_cancel' (by omega)] at hcarry
    refine zeroPadded_carry ?_ hcarry
    rw [hlast, hlength last (by omega) (by omega)]
  · intro hlast i j hij hj
    rw [zeroPadded_lt_iff]
    · omega
    · rw [hlength (start + i) (by omega) (by omega), hlength (start + j) (by omega) (by omega)]

/-- **Exactly when tokens sort in the order in which they are issued.** Steps in a row give their tokens
if the width is in bounds and the last counter can be written, and whenever they do, their tokens ascend
if and only if the last counter has no more digits than the padding or the first one. -/
theorem issued_tokens_ascend_iff (stamp : String) (start width count : Nat) (issued : List String)
    (hcount : 1 ≤ count) :
    ((∃ tokens after, run (issueTokens count) ⟨stamp, start, width, issued⟩ = (.ok tokens, after)) ↔
      (width : Int) < memoryBound ∧ start + count - 1 < integerTextBound) ∧
    ∀ tokens after, run (issueTokens count) ⟨stamp, start, width, issued⟩ = (.ok tokens, after) →
      tokens.length = count ∧
        (tokens.Pairwise (· < ·) ↔
          start + count - 1 < 10 ^ max width (Nat.toDigits 10 start).length) := by
  constructor
  · simp only [run_issueTokens_eq_ok]
    exact canIssue_from_iff hcount
  · intro tokens after hrun
    obtain ⟨htaken, rfl⟩ := run_issueTokens_eq_ok.mp hrun
    exact ⟨rfl, htaken.ascend_iff rfl rfl⟩

/-- A new sequence issues its first 9999 tokens in order, and the next one out of order. -/
theorem issued_tokens_ascend_to_9999 :
    (1 ≤ 9999 ∧ ∃ tokens after, run (issueTokens 9999) { stamp := "202403010930" } =
      (.ok tokens, after) ∧ tokens.Pairwise (· < ·)) ∧
    (1 ≤ 10000 ∧ ∃ tokens after, run (issueTokens 10000) { stamp := "202403010930" } =
      (.ok tokens, after) ∧ ¬tokens.Pairwise (· < ·)) := by
  have hwidth : ((4 : Nat) : Int) < memoryBound := by decide
  have hbound : 10 ^ 5 ≤ integerTextBound := tenTo_mono (by decide : 5 ≤ Number.digitLimit)
  have hsome : 1 ≤ 9999 := by decide
  have hmore : 1 ≤ 10000 := by decide
  obtain ⟨hrun, horder⟩ := issued_tokens_ascend_iff "202403010930" 1 4 9999 [] hsome
  obtain ⟨hrun', horder'⟩ := issued_tokens_ascend_iff "202403010930" 1 4 10000 [] hmore
  obtain ⟨tokens, after, htokens⟩ := hrun.mpr ⟨hwidth, by omega⟩
  obtain ⟨tokens', after', htokens'⟩ := hrun'.mpr ⟨hwidth, by omega⟩
  refine ⟨⟨hsome, tokens, after, htokens, ?_⟩, hmore, tokens', after', htokens', ?_⟩
  · rw [(horder tokens after htokens).2]
    decide
  · rw [(horder' tokens' after' htokens').2]
    decide

end Sequence

end ApiScaffold
