import Mathlib
import ApiScaffold.Migration.Sequence
import ApiScaffold.Proofs.Lists
import ApiScaffold.Proofs.Outcome

/-! Tokens of a sequence. A token shows its counter, so tokens of different counters differ, and they
still do when other texts follow them behind an underscore. Tokens that are taken one after another
have consecutive counters. -/

namespace ApiScaffold

/-! ### Padded numbers -/

theorem isDigit_of_mem_zeroPadded {width n : Nat} {c : Char}
    (h : c ∈ (zeroPadded width n).toList) : c.isDigit = true := by
  simp only [zeroPadded, String.toList_append, String.toList_ofList, Nat.toList_repr,
    List.mem_append, List.mem_replicate] at h
  rcases h with ⟨-, rfl⟩ | hdigit
  · decide
  · exact Nat.isDigit_of_mem_toDigits (by decide) (by decide) hdigit

theorem ofDigitChars_zeroPadded (width n : Nat) :
    Nat.ofDigitChars 10 (zeroPadded width n).toList 0 = n := by
  simp [zeroPadded, Nat.ofDigitChars_append]

theorem zeroPadded_injective {width m n : Nat} (h : zeroPadded width m = zeroPadded width n) :
    m = n := by
  rw [← ofDigitChars_zeroPadded width m, h, ofDigitChars_zeroPadded]

namespace Sequence

theorem mem_paddedText {width : Nat} {n : Int} {c : Char} (h : c ∈ (paddedText width n).toList) :
    c = '-' ∨ c.isDigit = true := by
  unfold paddedText at h
  split at h
  · rw [String.toList_append, List.mem_append] at h
    rcases h with hsign | hdigit
    · exact Or.inl (by simpa using hsign)
    · exact Or.inr (isDigit_of_mem_zeroPadded hdigit)
  · exact Or.inr (isDigit_of_mem_zeroPadded h)

theorem underscore_not_mem_paddedText {width : Nat} {n : Int} :
    '_' ∉ (paddedText width n).toList := by
  intro h
  rcases mem_paddedText h with hsign | hdigit
  · exact absurd hsign (by decide)
  · exact absurd hdigit (by decide)

/-- A padded number is not another one with a sign in front. -/
theorem zeroPadded_ne_signed {width width' m n : Nat} :
    zeroPadded width m ≠ "-" ++ zeroPadded width' n := by
  intro h
  have hsign : '-' ∈ (zeroPadded width m).toList := by
    rw [h, String.toList_append]
    exact List.mem_append_left _ (by decide)
  exact absurd (isDigit_of_mem_zeroPadded hsign) (by decide)

theorem paddedText_injective {width : Nat} {m n : Int} (h : paddedText width m = paddedText width n) :
    m = n := by
  unfold paddedText at h
  split at h
  · rename_i hm
    split at h
    · rename_i hn
      have habs := zeroPadded_injective (String.append_right_inj _ |>.mp h)
      omega
    · exact absurd h.symm zeroPadded_ne_signed
  · rename_i hm
    split at h
    · exact absurd h zeroPadded_ne_signed
    · rename_i hn
      have habs := zeroPadded_injective h
      omega

/-! ### Single tokens -/

/-- The token that a counter has in a sequence. -/
def tokenAt (sequence : Sequence) (n : Int) : String :=
  sequence.stamp ++ "_" ++ paddedText sequence.width.toNat n

/-- A counter is padded, or what keeps it from being written is named. -/
theorem counterText_cases (width n : Int) :
    counterText width n = .ok (paddedText width.toNat n) ∨
      counterText width n = .error (.literal .numberTooLong) ∨
      ∃ reason, counterText width n = .error (.width reason) := by
  rw [counterText]
  -- The bound on numbers is far too large to be evaluated.
  generalize hasIntegerText width = isWidthText
  generalize hasIntegerText n = isCounterText
  split
  · exact Or.inr (Or.inl rfl)
  · split
    · exact Or.inr (Or.inr ⟨_, rfl⟩)
    · split
      · exact Or.inr (Or.inr ⟨_, rfl⟩)
      · split
        · exact Or.inr (Or.inl rfl)
        · split
          · exact Or.inr (Or.inr ⟨_, rfl⟩)
          · exact Or.inl rfl

theorem token_eq_ok {sequence : Sequence} {token : String} (h : sequence.token = .ok token) :
    token = sequence.tokenAt sequence.next := by
  rw [Sequence.token, Outcome.map_eq_ok] at h
  obtain ⟨text, htext, rfl⟩ := h
  rcases counterText_cases sequence.width sequence.next with hok | hlong | ⟨reason, hwidth⟩
  · rw [hok] at htext
    rw [tokenAt, Except.ok.inj htext]
  · rw [hlong] at htext
    cases htext
  · rw [hwidth] at htext
    cases htext

/-- What keeps a sequence from giving a token is a width or a counter that cannot be written. -/
theorem token_eq_error {sequence : Sequence} {fault : GenerationFault}
    (h : sequence.token = .error fault) :
    fault = .literal .numberTooLong ∨ ∃ reason, fault = .width reason := by
  rw [token, Outcome.map_eq_error] at h
  rcases counterText_cases sequence.width sequence.next with hok | hlong | ⟨reason, hwidth⟩
  · rw [hok] at h
    cases h
  · rw [hlong] at h
    exact Or.inl (Except.error.inj h).symm
  · rw [hwidth] at h
    exact Or.inr ⟨reason, (Except.error.inj h).symm⟩

/-- A token ends where the first underscore behind its stamp follows. -/
theorem tokenAt_labelled_inj {sequence : Sequence} {m n : Int} {label label' : String}
    (h : sequence.tokenAt m ++ "_" ++ label = sequence.tokenAt n ++ "_" ++ label') :
    m = n ∧ label = label' := by
  have hlists := congrArg String.toList h
  simp only [tokenAt, String.toList_append, List.append_assoc] at hlists
  have hrest := List.append_cancel_left (List.append_cancel_left hlists)
  have hmark : "_".toList = ['_'] := rfl
  rw [hmark, List.singleton_append, List.singleton_append] at hrest
  obtain ⟨htext, hlabel⟩ :=
    append_mark_inj underscore_not_mem_paddedText underscore_not_mem_paddedText hrest
  exact ⟨paddedText_injective (String.toList_injective htext), String.toList_injective hlabel⟩

theorem tokenAt_injective (sequence : Sequence) : Function.Injective sequence.tokenAt := by
  intro m n h
  have hlabelled : sequence.tokenAt m ++ "_" ++ "" = sequence.tokenAt n ++ "_" ++ "" := by rw [h]
  exact (tokenAt_labelled_inj hlabelled).1

/-! ### Tokens in a row -/

/-- Tokens that are taken from one sequence one after another, until another is left. -/
inductive Taken : Sequence → List String → Sequence → Prop
  | nil {sequence : Sequence} : Taken sequence [] sequence
  | cons {sequence after : Sequence} {token : String} {tokens : List String} :
      sequence.token = .ok token → Taken (sequence.advance token) tokens after →
        Taken sequence (token :: tokens) after

namespace Taken

variable {before between after : Sequence} {tokens others : List String}

theorem append (h : Taken before tokens between) (hothers : Taken between others after) :
    Taken before (tokens ++ others) after := by
  induction h with
  | nil => exact hothers
  | cons htoken _ ih => exact cons htoken (ih hothers)

/-- Only the counter and the list of issued tokens change. -/
theorem after_eq (h : Taken before tokens after) :
    after = { before with
      next := before.next + tokens.length, issued := before.issued ++ tokens } := by
  induction h with
  | nil => simp
  | cons _ _ ih =>
      rw [ih]
      simp only [advance, List.length_cons, List.append_assoc, List.singleton_append, Nat.cast_add,
        Nat.cast_one, Sequence.mk.injEq, true_and, and_true]
      omega

/-- Each of the tokens in a row is the token that its counter gives. -/
theorem map_ok (h : Taken before tokens after) :
    tokens.map Except.ok = (List.range tokens.length).map fun i : Nat =>
      ({ before with next := before.next + i } : Sequence).token := by
  induction h with
  | nil => rfl
  | @cons sequence _ token tokens htoken _ ih =>
      rw [List.length_cons, List.range_succ_eq_map, List.map_cons, List.map_cons, List.map_map]
      refine congrArg₂ List.cons ?_ ?_
      · rw [Nat.cast_zero, add_zero, htoken]
      · rw [ih]
        apply List.map_congr_left
        intro i _
        simp only [Function.comp_apply, Sequence.token, advance, Nat.succ_eq_add_one, Nat.cast_add,
          Nat.cast_one]
        rw [add_assoc, add_comm (1 : Int)]

theorem token_getElem (h : Taken before tokens after) {i : Nat} (hi : i < tokens.length) :
    ({ before with next := before.next + i } : Sequence).token = .ok tokens[i] := by
  have htoken := congrArg (fun given => given[i]?) h.map_ok
  simp only [List.getElem?_map, List.getElem?_eq_getElem hi, List.getElem?_range hi,
    Option.map_some, Option.some.injEq] at htoken
  exact htoken.symm

theorem getElem_eq (h : Taken before tokens after) {i : Nat} (hi : i < tokens.length) :
    tokens[i] = before.tokenAt (before.next + i) :=
  token_eq_ok (h.token_getElem hi)

/-- Tokens in a row have consecutive counters. -/
theorem eq_map (h : Taken before tokens after) :
    tokens = (List.range tokens.length).map fun i : Nat => before.tokenAt (before.next + i) := by
  apply List.ext_getElem
  · rw [List.length_map, List.length_range]
  · intro i hi hrange
    rw [List.getElem_map, List.getElem_range, h.getElem_eq hi]

/-- Tokens in a row differ. -/
theorem nodup (h : Taken before tokens after) : tokens.Nodup := by
  rw [h.eq_map]
  apply List.nodup_range.map
  intro i j heq
  have hcounter := before.tokenAt_injective heq
  omega

end Taken

end Sequence

end ApiScaffold
