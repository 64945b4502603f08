import Mathlib.Data.List.Forall2
import SearchCommands.Proofs.Text.Words
import SearchCommands.Text.Alphanumeric
import SearchCommands.Text.CaseFold
import SearchCommands.Text.WordCharacter

/-!
# Letters and the characters between them

Aliases are read in any letter case.  A character that takes no part in case folding is spelled in
one way only, so blanks, quotation marks, digits and the characters of operators never come from
an alias that does not contain them.  The edge of a word is a question about two neighbours, and
blanks and operators are on its outer side.
-/

namespace SearchCommands.Text

/-- The code points that can fold to the given one. -/
def spellings (code : Nat) : List Nat :=
  code :: foldRuns.filterMap fun run =>
    if run.first ≤ (code : Int) - run.shift ∧ (code : Int) - run.shift ≤ run.last then
      some ((code : Int) - run.shift).toNat
    else none

theorem foldCode_cases {runs : List FoldRun} {code folded : Nat} (positive : 0 < folded)
    (same : foldCode runs code = folded) :
    code = folded ∨ ∃ run ∈ runs, run.first ≤ code ∧ code ≤ run.last ∧
      (code : Int) + run.shift = folded := by
  induction runs with
  | nil => exact Or.inl same
  | cons run rest ih =>
      unfold foldCode at same
      split at same
      · exact Or.inl same
      · rename_i notBelow
        split at same
        · rename_i notAbove
          split at same
          · right
            refine ⟨run, by simp, by omega, notAbove, by omega⟩
          · exact Or.inl same
        · rcases ih same with fixed | ⟨other, member, bounds⟩
          · exact Or.inl fixed
          · exact Or.inr ⟨other, List.mem_cons_of_mem run member, bounds⟩

theorem mem_spellings_of_foldCode {code folded : Nat} (positive : 0 < folded)
    (same : foldCode foldRuns code = folded) : code ∈ spellings folded := by
  rcases foldCode_cases positive same with rfl | ⟨run, member, low, high, shifted⟩
  · simp [spellings]
  · apply List.mem_cons_of_mem
    apply List.mem_filterMap.mpr
    refine ⟨run, member, ?_⟩
    rw [if_pos (by omega)]
    congr 1
    omega

/-- A character that folds to a given one has one of its spellings. -/
theorem mem_spellings_of_foldCase {c folded : Char} (positive : 0 < folded.toNat)
    (same : foldCase c = folded) : c.toNat ∈ spellings folded.toNat := by
  apply mem_spellings_of_foldCode positive
  have code : (Char.ofNat (foldCode foldRuns c.toNat)).toNat = folded.toNat :=
    congrArg Char.toNat same
  by_cases valid : (foldCode foldRuns c.toNat).isValidChar
  · rwa [Char.ofNat, dif_pos valid] at code
  · rw [Char.ofNat, dif_neg valid] at code
    have zero : folded.toNat = 0 := code.symm
    omega

/-- The character is the only spelling of itself. -/
def isCaseless (c : Char) : Bool :=
  0 < c.toNat && foldCase c == c && spellings c.toNat == [c.toNat]

theorem foldCase_of_caseless {c : Char} (caseless : isCaseless c = true) : foldCase c = c := by
  simp only [isCaseless, Bool.and_eq_true, beq_iff_eq] at caseless
  exact caseless.1.2

theorem eq_of_foldCase_caseless {c fixed : Char} (caseless : isCaseless fixed = true)
    (same : foldCase c = fixed) : c = fixed := by
  simp only [isCaseless, Bool.and_eq_true, beq_iff_eq, decide_eq_true_eq] at caseless
  have member := mem_spellings_of_foldCase caseless.1.1 same
  rw [caseless.2, List.mem_singleton] at member
  exact Char.toNat_inj.mp member

theorem sameLetter_refl (c : Char) : sameLetter c c = true := by
  simp [sameLetter]

theorem sameLetter_comm (a b : Char) : sameLetter a b = sameLetter b a := by
  simp [sameLetter, Bool.beq_comm]

theorem eq_of_sameLetter_caseless {a b : Char} (caseless : isCaseless a = true)
    (same : sameLetter a b = true) : b = a := by
  simp only [sameLetter, beq_iff_eq] at same
  rw [foldCase_of_caseless caseless] at same
  exact eq_of_foldCase_caseless caseless same.symm

theorem isCaseless_quote : isCaseless '"' = true := by decide +kernel

theorem isCaseless_minus : isCaseless '-' = true := by decide +kernel

/-- The code points of the blanks. -/
def blankCodes : List Nat :=
  [9, 10, 11, 12, 13, 0x20, 0x85, 0xA0, 0x1680, 0x2000, 0x2001, 0x2002, 0x2003, 0x2004, 0x2005,
   0x2006, 0x2007, 0x2008, 0x2009, 0x200A, 0x2028, 0x2029, 0x202F, 0x205F, 0x3000]

theorem mem_blankCodes {c : Char} (blank : isBlank c = true) : c.toNat ∈ blankCodes := by
  simp only [isBlank, Bool.or_eq_true, Bool.and_eq_true, decide_eq_true_eq, beq_iff_eq] at blank
  simp only [blankCodes, List.mem_cons, List.not_mem_nil, or_false]
  omega

/-- What holds of the code points of the blanks, one by one, holds of every blank. -/
theorem forall_blank {p : Char → Bool}
    (each : blankCodes.all (fun code => p (Char.ofNat code)) = true) {c : Char}
    (blank : isBlank c = true) : p c = true := by
  have here := List.all_eq_true.mp each c.toNat (mem_blankCodes blank)
  rwa [Char.ofNat_toNat] at here

theorem isCaseless_of_isBlank {c : Char} (blank : isBlank c = true) : isCaseless c = true :=
  forall_blank (by decide +kernel) blank

theorem isWordCharacter_of_isBlank {c : Char} (blank : isBlank c = true) :
    isWordCharacter c = false := by
  have := forall_blank (p := fun c => !isWordCharacter c) (by decide +kernel) blank
  simpa using this

/-- A text is spelled as another one: letter by letter the same, up to case. -/
abbrev SpelledAs (text found : List Char) : Prop :=
  List.Forall₂ (fun a b => sameLetter a b = true) text found

theorem SpelledAs.refl (text : List Char) : SpelledAs text text := by
  induction text with
  | nil => exact .nil
  | cons c rest ih => exact .cons (sameLetter_refl c) ih

theorem SpelledAs.mem {text found : List Char} (spelled : SpelledAs text found) {c : Char}
    (member : c ∈ found) : ∃ d ∈ text, sameLetter d c = true := by
  induction spelled with
  | nil => simp at member
  | cons same _ ih =>
      rcases List.mem_cons.mp member with rfl | member
      · exact ⟨_, by simp, same⟩
      · rcases ih member with ⟨d, inside, same⟩
        exact ⟨d, List.mem_cons_of_mem _ inside, same⟩

/-- A caseless character of the spelling stands in the text itself. -/
theorem SpelledAs.mem_of_caseless {text found : List Char} (spelled : SpelledAs text found)
    {c : Char} (caseless : isCaseless c = true) (member : c ∈ found) : c ∈ text := by
  rcases spelled.mem member with ⟨d, inside, same⟩
  rw [sameLetter_comm] at same
  exact eq_of_sameLetter_caseless caseless same ▸ inside

theorem SpelledAs.noBlank {text found : List Char} (spelled : SpelledAs text found)
    (inked : NoBlank text) : NoBlank found := by
  intro c member
  by_contra blank
  rw [Bool.not_eq_false] at blank
  have inside := spelled.mem_of_caseless (isCaseless_of_isBlank blank) member
  rw [inked c inside] at blank
  exact Bool.noConfusion blank

theorem SpelledAs.noQuote {text found : List Char} (spelled : SpelledAs text found)
    (plain : '"' ∉ text) : '"' ∉ found :=
  fun member => plain (spelled.mem_of_caseless isCaseless_quote member)

theorem SpelledAs.ne_nil {text found : List Char} (spelled : SpelledAs text found)
    (nonempty : text ≠ []) : found ≠ [] := by
  cases spelled with
  | nil => exact absurd rfl nonempty
  | cons _ _ => simp

end SearchCommands.Text
