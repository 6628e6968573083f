import Mathlib
import ApiScaffold.Json

/-! Numerals in documents, in statements and in modules, and which numbers are written as one. Integers and
finite doubles are; infinities and not-a-number are written as names. -/

namespace ApiScaffold

/-- A numeral: a sign, the digits before the point and behind it, and an exponent with its mark. -/
structure Numeral where
  negative : Bool := false
  whole : List Char
  fraction : Option (List Char) := none
  exponent : Option (List Char × List Char) := none
  deriving DecidableEq, Repr

namespace Numeral

/-- What may stand before the digits of an exponent. -/
def exponentMarks : List (List Char) :=
  [['e'], ['E'], ['e', '+'], ['E', '+'], ['e', '-'], ['E', '-']]

/-- A numeral as it is written. -/
def chars (m : Numeral) : List Char :=
  (if m.negative then ['-'] else []) ++ m.whole ++ (m.fraction.map ('.' :: ·)).getD []
    ++ (m.exponent.map fun e => e.1 ++ e.2).getD []

def IsDigits (chars : List Char) : Prop := ∀ c ∈ chars, c.isDigit = true

/-- Numerals of statements: there is a digit before the point or behind it, and one in an exponent. -/
structure IsSql (m : Numeral) : Prop where
  whole : IsDigits m.whole
  fraction : ∀ digits ∈ m.fraction, IsDigits digits
  exponent : ∀ e ∈ m.exponent, e.1 ∈ exponentMarks ∧ e.2 ≠ [] ∧ IsDigits e.2
  some_digit : m.whole ++ m.fraction.getD [] ≠ []

/-- Numerals of code: besides, an integer has no zeros in front of other digits. -/
structure IsCode (m : Numeral) : Prop extends IsSql m where
  no_leading_zero : m.fraction = none → m.exponent = none → m.whole.head? = some '0' →
    ∀ c ∈ m.whole, c = '0'

/-- Numerals of documents: there are digits on both sides of a point, and a zero in front stands alone. -/
structure IsJson (m : Numeral) : Prop extends IsSql m where
  whole_ne_nil : m.whole ≠ []
  no_leading_zero : m.whole.head? = some '0' → m.whole = ['0']
  fraction_ne_nil : ∀ digits ∈ m.fraction, digits ≠ []

/-- Numerals of documents can stand in code as well. -/
theorem IsJson.isCode {m : Numeral} (h : m.IsJson) : m.IsCode where
  toIsSql := h.toIsSql
  no_leading_zero := by
    intro _ _ hzero
    rw [h.no_leading_zero hzero]
    exact fun c hc => List.mem_singleton.mp hc

/-- A text is a numeral of a kind. -/
def Spells (kind : Numeral → Prop) (text : String) : Prop := ∃ m, kind m ∧ text.toList = m.chars

theorem Spells.mono {kind other : Numeral → Prop} (hkind : ∀ m, kind m → other m) {text : String}
    (h : Spells kind text) : Spells other text := by
  obtain ⟨m, hm, htext⟩ := h
  exact ⟨m, hkind m hm, htext⟩

/-! ### Parts -/

theorem isDigits_replicate (n : Nat) : IsDigits (List.replicate n '0') := by
  intro c hc
  rw [List.eq_of_mem_replicate hc]
  rfl

theorem isDigits_append {first second : List Char} (hfirst : IsDigits first) (hsecond : IsDigits second) :
    IsDigits (first ++ second) := List.forall_mem_append.mpr ⟨hfirst, hsecond⟩

/-- A numeral with digits on both sides of the point. -/
theorem isJson_pointed {whole fraction : List Char} (hwhole : IsDigits whole) (hne : whole ≠ [])
    (hleading : whole.head? = some '0' → whole = ['0']) (hfraction : IsDigits fraction)
    (hsome : fraction ≠ []) : IsJson { whole := whole, fraction := some fraction } where
  whole := hwhole
  fraction := by simpa using hfraction
  exponent := by simp
  some_digit := by simp [hne]
  whole_ne_nil := hne
  no_leading_zero := hleading
  fraction_ne_nil := by simpa using hsome

/-- One digit, more of them behind a point if there are any, and an exponent with a sign. -/
theorem isJson_exponential {first : Char} {rest power : List Char} {sign : Char}
    (hdigits : IsDigits (first :: rest)) (hsign : ['e', sign] ∈ exponentMarks) (hpower : IsDigits power)
    (hsome : power ≠ []) :
    IsJson { whole := [first], fraction := if rest = [] then none else some rest,
             exponent := some (['e', sign], power) } where
  whole := fun c hc => hdigits c (List.mem_singleton.mp hc ▸ List.mem_cons_self)
  fraction := by
    intro digits hmem
    split at hmem
    · cases hmem
    · rw [← Option.some.inj hmem]
      exact fun c hc => hdigits c (List.mem_cons_of_mem first hc)
  exponent := by
    rintro e he
    rw [← Option.some.inj he]
    exact ⟨hsign, hsome, hpower⟩
  some_digit := by simp
  whole_ne_nil := List.cons_ne_nil first []
  no_leading_zero := by
    intro hzero
    rw [Option.some.inj hzero]
  fraction_ne_nil := by
    intro digits hmem
    split at hmem
    · cases hmem
    · rename_i hne
      rwa [← Option.some.inj hmem]

/-! ### Names -/

/-- What stands in a numeral that is not a digit. -/
def isMark (c : Char) : Bool := ['-', '+', '.', 'e', 'E'].contains c

theorem IsSql.isDigit_or_isMark {m : Numeral} (h : m.IsSql) {c : Char} (hc : c ∈ m.chars) :
    c.isDigit = true ∨ isMark c = true := by
  have hmarks : ∀ mark ∈ exponentMarks, ∀ c ∈ mark, isMark c = true := by simp [exponentMarks, isMark]
  simp only [chars, List.mem_append] at hc
  rcases hc with ((hsign | hwhole) | hfraction) | hexponent
  · split at hsign
    · rw [List.mem_singleton.mp hsign]
      exact Or.inr rfl
    · exact absurd hsign List.not_mem_nil
  · exact Or.inl (h.whole c hwhole)
  · cases hpart : m.fraction with
    | none => simp [hpart] at hfraction
    | some digits =>
        rw [hpart, Option.map_some, Option.getD_some, List.mem_cons] at hfraction
        rcases hfraction with rfl | hdigit
        · exact Or.inr rfl
        · exact Or.inl (h.fraction digits hpart c hdigit)
  · cases hpart : m.exponent with
    | none => simp [hpart] at hexponent
    | some e =>
        obtain ⟨hmark, -, hdigits⟩ := h.exponent e hpart
        rw [hpart, Option.map_some, Option.getD_some, List.mem_append] at hexponent
        exact hexponent.elim (fun hc => Or.inr (hmarks e.1 hmark c hc)) fun hc => Or.inl (hdigits c hc)

/-- A text with a letter that numerals do not have is none. -/
theorem not_spells {text : String} (h : ∃ c ∈ text.toList, c.isDigit = false ∧ isMark c = false) :
    ¬Spells IsSql text := by
  rintro ⟨m, hm, htext⟩
  obtain ⟨c, hc, hdigit, hmark⟩ := h
  rw [htext] at hc
  rcases hm.isDigit_or_isMark hc with htrue | htrue <;> simp_all

/-! ### Integers -/

theorem head?_toDigits {n : Nat} (h : n ≠ 0) : (Nat.toDigits 10 n).head? ≠ some '0' := by
  induction n using Nat.strong_induction_on with
  | _ n ih =>
      by_cases hsmall : n < 10
      · rw [Nat.toDigits_of_lt_base hsmall]
        revert h
        interval_cases n <;> decide
      · have hrest : n / 10 ≠ 0 := by omega
        have hfirst := ih (n / 10) (by omega) hrest
        rw [Nat.toDigits_of_base_le (by decide) (by omega), List.head?_append]
        cases hdigits : Nat.toDigits 10 (n / 10) with
        | nil => exact absurd hdigits Nat.toDigits_ne_nil
        | cons c rest =>
            rw [hdigits] at hfirst
            exact hfirst

theorem isDigits_repr (n : Nat) : IsDigits n.repr.toList := by
  rw [Nat.toList_repr]
  exact fun c hc => Nat.isDigit_of_mem_toDigits (by decide) (by decide) hc

theorem repr_toList_ne_nil (n : Nat) : n.repr.toList ≠ [] := by
  rw [Nat.toList_repr]
  exact Nat.toDigits_ne_nil

theorem isJson_repr (negative : Bool) (n : Nat) :
    IsJson { negative := negative, whole := n.repr.toList } where
  whole := isDigits_repr n
  fraction := by simp
  exponent := by simp
  some_digit := by simp [Nat.toDigits_ne_nil]
  whole_ne_nil := repr_toList_ne_nil n
  fraction_ne_nil := by simp
  no_leading_zero := by
    intro hzero
    rw [Nat.toList_repr] at hzero ⊢
    by_cases hn : n = 0
    · rw [hn]
      rfl
    · exact absurd hzero (head?_toDigits hn)

theorem spells_integerText (i : Int) : Spells IsJson (integerText i) := by
  cases i with
  | ofNat n => exact ⟨_, isJson_repr false n, by simp [integerText, chars]⟩
  | negSucc n => exact ⟨_, isJson_repr true (n + 1), by simp [integerText, chars]⟩

end Numeral

end ApiScaffold
