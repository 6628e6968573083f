import Mathlib
import ApiScaffold.Proofs.Naming.Words

/-! The core of a name, from its first letter or digit to its last one. What stands around it separates
words and says nothing: the module and the class are named by the core alone. -/

namespace ApiScaffold.Naming

/-! ### Characters -/

/-- A character that belongs to no word. -/
def isGap (c : Char) : Bool := !isWordChar c

/-- Characters that belong to no word. -/
def AreGaps (chars : List Char) : Prop := ∀ c ∈ chars, isWordChar c = false

/-- No word goes on in a text: it is empty, or begins with a gap. -/
def EndsWord (behind : List Char) : Prop := ∀ c ∈ behind.head?, isWordChar c = false

theorem AreGaps.endsWord {chars : List Char} (h : AreGaps chars) : EndsWord chars :=
  fun c hc => h c (List.mem_of_mem_head? hc)

/-- What holds for all letters and digits, by their codes. -/
theorem of_isWordChar {p : Char → Prop} (hcodes : ∀ code < 0x7B,
      isWordChar (Char.ofNat code) = true → p (Char.ofNat code)) {c : Char}
    (h : isWordChar c = true) : p c := by
  have hcode := toNat_of_isNameChar (c := c) (by rw [isNameChar, Bool.or_eq_true]; exact Or.inl h)
  rw [← Char.ofNat_toNat c] at h ⊢
  exact hcodes c.toNat (by omega) h

section Characters

variable {c : Char}

theorem toUpper_toLower (h : isWordChar c = true) : c.toLower.toUpper = c.toUpper :=
  of_isWordChar (p := fun c => c.toLower.toUpper = c.toUpper) (by decide) h

theorem toLower_toUpper (h : isWordChar c = true) : c.toUpper.toLower = c.toLower :=
  of_isWordChar (p := fun c => c.toUpper.toLower = c.toLower) (by decide) h

theorem not_isLower_toUpper (h : isWordChar c = true) : isLower c.toUpper = false :=
  of_isWordChar (p := fun c => isLower c.toUpper = false) (by decide) h

theorem not_isUpper_toLower (h : isWordChar c = true) : isUpper c.toLower = false :=
  of_isWordChar (p := fun c => isUpper c.toLower = false) (by decide) h

theorem toUpper_of_isUpper (h : isUpper c = true) : c.toUpper = c :=
  of_isWordChar (p := fun c => isUpper c = true → c.toUpper = c) (by decide)
    (isWordChar_of_isUpper h) h

theorem toLower_of_not_isUpper (h : isUpper c = false) : c.toLower = c :=
  Char.toLower_eq_of_not_isUpper (by simpa [isUpper] using h)

theorem map_toLower_map_toLower {chars : List Char} (h : ∀ c ∈ chars, isWordChar c = true) :
    (chars.map Char.toLower).map Char.toLower = chars.map Char.toLower := by
  rw [List.map_map]
  exact List.map_congr_left fun c hc => toLower_of_not_isUpper (not_isUpper_toLower (h c hc))

theorem isUpper_toUpper (h : isLower c = true) : isUpper c.toUpper = true :=
  of_isWordChar (p := fun c => isLower c = true → isUpper c.toUpper = true) (by decide)
    (isWordChar_of_isLower h) h

theorem not_isLower_of_isUpper (h : isUpper c = true) : isLower c = false :=
  of_isWordChar (p := fun c => isUpper c = true → isLower c = false) (by decide)
    (isWordChar_of_isUpper h) h

theorem not_isDigit_of_isUpper (h : isUpper c = true) : c.isDigit = false :=
  of_isWordChar (p := fun c => isUpper c = true → c.isDigit = false) (by decide)
    (isWordChar_of_isUpper h) h

theorem not_isLower_of_isDigit (h : c.isDigit = true) : isLower c = false :=
  of_isWordChar (p := fun c => c.isDigit = true → isLower c = false) (by decide)
    (isWordChar_of_isDigit h) h

theorem not_isUpper_of_isDigit (h : c.isDigit = true) : isUpper c = false :=
  of_isWordChar (p := fun c => c.isDigit = true → isUpper c = false) (by decide)
    (isWordChar_of_isDigit h) h

theorem not_isUpper_of_isLower (h : isLower c = true) : isUpper c = false :=
  of_isWordChar (p := fun c => isLower c = true → isUpper c = false) (by decide)
    (isWordChar_of_isLower h) h

theorem toLower_of_isLower (h : isLower c = true) : c.toLower = c :=
  toLower_of_not_isUpper (not_isUpper_of_isLower h)

/-- A character whose small form is a small letter is a letter. -/
theorem isLower_or_isUpper (h : isWordChar c = true) (hlower : isLower c.toLower = true) :
    isLower c = true ∨ isUpper c = true :=
  of_isWordChar (p := fun c => isLower c.toLower = true → isLower c = true ∨ isUpper c = true)
    (by decide) h hlower

theorem isLower_toLower (h : isLower c = true ∨ isUpper c = true) : isLower c.toLower = true :=
  of_isWordChar (p := fun c => isLower c = true ∨ isUpper c = true → isLower c.toLower = true) (by decide)
    (h.elim isWordChar_of_isLower isWordChar_of_isUpper) h

/-- A character that belongs to no word is of no kind that words have. -/
theorem eq_false_of_gap {kind : Char → Bool} (hkind : kind c = true → isWordChar c = true)
    (h : isWordChar c = false) : kind c = false :=
  Bool.eq_false_iff.mpr fun hc => Bool.eq_false_iff.mp h (hkind hc)

end Characters

/-! ### The core of a name -/

/-- A name from its first letter or digit to its last one. -/
def core (name : String) : String :=
  String.ofList ((name.toList.dropWhile isGap).rdropWhile isGap)

theorem exists_eq_core (name : String) :
    ∃ front behind, name.toList = front ++ ((core name).toList ++ behind) ∧ AreGaps front ∧
      AreGaps behind := by
  have hgap : ∀ {c : Char}, isGap c = true → isWordChar c = false := by simp [isGap]
  refine ⟨name.toList.takeWhile isGap, (name.toList.dropWhile isGap).rtakeWhile isGap, ?_,
    fun c hc => hgap (List.mem_takeWhile_imp hc), fun c hc => hgap (List.mem_rtakeWhile_imp hc)⟩
  rw [core, String.toList_ofList, List.rdropWhile_append_rtakeWhile, List.takeWhile_append_dropWhile]

theorem isWordChar_of_mem_head?_core {name : String} {c : Char} (h : c ∈ (core name).toList.head?) :
    isWordChar c = true := by
  rw [core, String.toList_ofList] at h
  obtain ⟨rest, hrest⟩ := List.rdropWhile_prefix isGap (name.toList.dropWhile isGap)
  have hhead := List.head?_dropWhile_not isGap name.toList
  rw [← hrest, List.head?_append, h, Option.some_or] at hhead
  simpa [isGap] using hhead

theorem isWordChar_of_mem_getLast?_core {name : String} {c : Char}
    (h : c ∈ (core name).toList.getLast?) : isWordChar c = true := by
  rw [core, String.toList_ofList] at h
  obtain ⟨hne, rfl⟩ := List.mem_getLast?_eq_getLast h
  simpa [isGap] using List.rdropWhile_last_not isGap (name.toList.dropWhile isGap) hne

theorem dropWhile_isGap {chars : List Char} (h : ∀ c ∈ chars, isWordChar c = true) :
    chars.dropWhile isGap = chars := by
  cases chars with
  | nil => rfl
  | cons c rest =>
      rw [List.forall_mem_cons] at h
      exact List.dropWhile_cons_of_neg (by simp [isGap, h.1])

/-- Letters and digits between gaps are the core. -/
theorem core_eq {name : String} {front chars behind : List Char}
    (h : name.toList = front ++ (chars ++ behind)) (hfront : AreGaps front)
    (hbehind : AreGaps behind) (hall : ∀ c ∈ chars, isWordChar c = true) :
    core name = String.ofList chars := by
  have hgaps : ∀ {gaps : List Char}, AreGaps gaps → ∀ c ∈ gaps, isGap c = true := by
    intro gaps hgaps c hc
    simp [isGap, hgaps c hc]
  have hdropped : (chars ++ behind).rdropWhile isGap = chars := by
    rw [List.rdropWhile, List.reverse_append, List.dropWhile_append_of_pos, dropWhile_isGap,
      List.reverse_reverse]
    · exact fun c hc => hall c (List.mem_reverse.mp hc)
    · exact fun c hc => hgaps hbehind c (List.mem_reverse.mp hc)
  rw [core, h, List.dropWhile_append_of_pos (hgaps hfront), List.dropWhile_append, dropWhile_isGap hall]
  split
  · rename_i hempty
    rw [List.isEmpty_iff.mp hempty, List.dropWhile_eq_nil_iff.mpr (hgaps hbehind)]
    rfl
  · rw [hdropped]

/-! ### Snake case -/

section Separators

variable {p c : Char} {rest : List Char}

theorem separateCasing_none_cons (c : Char) (rest : List Char) :
    separateCasing none (c :: rest) = c :: separateCasing (some c) rest := rfl

theorem separateCasing_some_cons (h : beginsWord p c rest.head? = false) :
    separateCasing (some p) (c :: rest) = c :: separateCasing (some c) rest := by
  simp only [separateCasing, h, Bool.false_eq_true, if_false]

theorem separateCasing_cons_of_beginsWord (h : beginsWord p c rest.head? = true) :
    separateCasing (some p) (c :: rest) = '_' :: c :: separateCasing (some c) rest := by
  simp only [separateCasing, h, if_true]

/-- No word begins with a character that is no capital. -/
theorem beginsWord_of_not_isUpper (h : isUpper c = false) (following : Option Char) :
    beginsWord p c following = false := by
  rw [beginsWord, h, Bool.false_and]

theorem not_isUpper_of_gap (h : isWordChar c = false) : isUpper c = false :=
  eq_false_of_gap isWordChar_of_isUpper h

/-- Behind a gap no separator is needed. -/
theorem beginsWord_of_gap (h : isWordChar p = false) (following : Option Char) :
    beginsWord p c following = false := by
  have hlower : isLower p = false := eq_false_of_gap isWordChar_of_isLower h
  have hdigit : p.isDigit = false := eq_false_of_gap isWordChar_of_isDigit h
  rw [beginsWord, hlower, hdigit, not_isUpper_of_gap h]
  simp

end Separators

section Gaps

variable {gaps : List Char} (hgaps : AreGaps gaps)

include hgaps

theorem separateCasing_gaps (previous : Option Char) : separateCasing previous gaps = gaps := by
  induction gaps generalizing previous with
  | nil => rfl
  | cons c rest ih =>
      obtain ⟨hc, hrest⟩ := List.forall_mem_cons.mp hgaps
      cases previous with
      | none => rw [separateCasing_none_cons, ih hrest]
      | some p =>
          rw [separateCasing_some_cons (beginsWord_of_not_isUpper (not_isUpper_of_gap hc) _), ih hrest]

theorem separateCasing_append_gaps (previous : Option Char) (chars : List Char) :
    separateCasing previous (chars ++ gaps) = separateCasing previous chars ++ gaps := by
  induction chars generalizing previous with
  | nil => exact separateCasing_gaps hgaps previous
  | cons c rest ih =>
      have hnext : ((rest ++ gaps).head?.map isLower).getD false = (rest.head?.map isLower).getD false := by
        cases rest with
        | cons d rest => rfl
        | nil =>
            cases gaps with
            | nil => rfl
            | cons d gaps => exact eq_false_of_gap isWordChar_of_isLower (hgaps d List.mem_cons_self)
      cases previous with
      | none => exact congrArg (List.cons c) (ih _)
      | some p =>
          have hsame : beginsWord p c (rest ++ gaps).head? = beginsWord p c rest.head? := by
            rw [beginsWord, hnext, beginsWord]
          cases hbegins : beginsWord p c rest.head? with
          | true =>
              rw [List.cons_append, separateCasing_cons_of_beginsWord (hsame.trans hbegins),
                separateCasing_cons_of_beginsWord hbegins, ih]
              rfl
          | false =>
              rw [List.cons_append, separateCasing_some_cons (hsame.trans hbegins),
                separateCasing_some_cons hbegins, ih, List.cons_append]

theorem separateCasing_gaps_append (chars : List Char) :
    separateCasing none (gaps ++ chars) = gaps ++ separateCasing none chars := by
  have hsome : ∀ {c : Char}, isWordChar c = false → ∀ chars,
      separateCasing (some c) chars = separateCasing none chars := by
    intro c hc chars
    cases chars with
    | nil => rfl
    | cons d rest =>
        rw [separateCasing_none_cons, separateCasing_some_cons (beginsWord_of_gap hc _)]
  induction gaps with
  | nil => rfl
  | cons c rest ih =>
      obtain ⟨hc, hrest⟩ := List.forall_mem_cons.mp hgaps
      rw [List.cons_append, separateCasing_none_cons, hsome hc, ih hrest, List.cons_append]

theorem joinRuns_gaps_append (pending : Bool) (chars : List Char) :
    joinRuns pending (gaps ++ chars) = joinRuns pending chars := by
  induction gaps with
  | nil => rfl
  | cons c rest ih =>
      obtain ⟨hc, hrest⟩ := List.forall_mem_cons.mp hgaps
      rw [List.cons_append, joinRuns, hc, if_neg Bool.false_ne_true, ih hrest]

theorem joinRuns_append_gaps (chars : List Char) :
    (∀ pending, joinRuns pending (chars ++ gaps) = joinRuns pending chars) ∧
      joinRuns.afterWord (chars ++ gaps) = joinRuns.afterWord chars := by
  induction chars with
  | nil =>
      have hnone : ∀ pending, joinRuns pending gaps = [] := fun pending => joinRuns_eq_nil.mpr hgaps
      refine ⟨hnone, ?_⟩
      cases gaps with
      | nil => rfl
      | cons c rest =>
          obtain ⟨hc, hrest⟩ := List.forall_mem_cons.mp hgaps
          simp only [List.nil_append, joinRuns.afterWord, hc, Bool.false_eq_true, if_false]
          exact joinRuns_eq_nil.mpr hrest
  | cons c rest ih =>
      obtain ⟨hruns, hword⟩ := ih
      simp only [List.cons_append, joinRuns, joinRuns.afterWord, hruns, hword, implies_true, and_self]

end Gaps

/-- The name of a module is made from the core alone. -/
theorem toList_moduleName (name : String) :
    (moduleName name).toList = joinRuns false (separateCasing none (core name).toList) := by
  obtain ⟨front, behind, hname, hfront, hbehind⟩ := exists_eq_core name
  rw [moduleName, snakeCase, String.toList_ofList, hname, separateCasing_gaps_append hfront,
    separateCasing_append_gaps hbehind, joinRuns_gaps_append hfront, (joinRuns_append_gaps hbehind _).1]

end ApiScaffold.Naming
