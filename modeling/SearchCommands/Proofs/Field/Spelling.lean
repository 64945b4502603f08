import SearchCommands.Proofs.Pattern.Languages

/-!
# How fields are spelled

The words of a field, said without its pattern: a flag is one of its aliases, a text is an alias
and a value after blanks, a number is an alias, an operator and digits without anything between
them.  `Field.OccursAt` puts a word at a place: after the start of the input or after blanks, and
before a blank or the end.

The statements on patterns in this file say which languages the parts of a field describe.
-/

namespace SearchCommands

open Text

namespace FieldPattern

/-- A word that starts with no minus sign and holds no quotation mark. -/
def BareWord (text : List Char) : Prop :=
  text ≠ [] ∧ NoBlank text ∧ '"' ∉ text ∧ text.head? ≠ some '-'

/-- A text in quotation marks. -/
def QuotedText (text : List Char) : Prop := ∃ inside, '"' ∉ inside ∧ text = enclosed inside

/-- The texts that a text field reads as its value. -/
def TextValue (quotable : Bool) (text : List Char) : Prop :=
  (quotable = true ∧ QuotedText text) ∨ BareWord text

/-- A run of digits. -/
def Digits (text : List Char) : Prop := text ≠ [] ∧ ∀ c ∈ text, c.isDigit = true

/-- The numbers without a sign: digits, or digits after a point with or without digits before. -/
def Unsigned (whole : Bool) (text : List Char) : Prop :=
  Digits text ∨ whole = false ∧
    ∃ integer fraction, text = integer ++ '.' :: fraction ∧ (integer = [] ∨ Digits integer) ∧
      Digits fraction

/-- The numbers of a number field. -/
def NumberText (signed whole : Bool) (text : List Char) : Prop :=
  Unsigned whole text ∨ signed = true ∧ ∃ unsigned, text = '-' :: unsigned ∧ Unsigned whole unsigned

/-- The symbols of operators that are given. -/
def OperatorText (text : List Char) : Prop :=
  ∃ operator : Operator, operator ≠ .absent ∧ text = operator.symbol.toList

theorem describes_bareWord : bareWord.Describes BareWord := by
  refine ((Pattern.Describes.one .bareStart).andThen (.anyNumber .bare)).congr ?_
  intro text
  constructor
  · rintro ⟨_, rest, rfl, ⟨c, rfl, start⟩, all⟩
    simp only [CharSet.contains, Bool.and_eq_true, Bool.not_eq_true', bne_iff_ne, ne_eq]
      at start all
    refine ⟨by simp, ?_, ?_, ?_⟩
    · intro d member
      rcases List.mem_cons.mp member with rfl | member
      · exact start.1.1
      · exact (all d member).1
    · intro member
      rcases List.mem_cons.mp member with same | member
      · exact start.1.2 same.symm
      · exact (all '"' member).2 rfl
    · simpa using start.2
  · rintro ⟨nonempty, inked, plain, noMinus⟩
    cases text with
    | nil => exact absurd rfl nonempty
    | cons c rest =>
        refine ⟨[c], rest, rfl, ⟨c, rfl, ?_⟩, ?_⟩
        · simp only [CharSet.contains, Bool.and_eq_true, Bool.not_eq_true', bne_iff_ne, ne_eq]
          refine ⟨⟨inked c (by simp), ?_⟩, ?_⟩
          · rintro rfl
            exact plain (by simp)
          · rintro rfl
            exact noMinus rfl
        · intro d member
          simp only [CharSet.contains, Bool.and_eq_true, Bool.not_eq_true', bne_iff_ne, ne_eq]
          refine ⟨inked d (List.mem_cons_of_mem c member), ?_⟩
          rintro rfl
          exact plain (List.mem_cons_of_mem c member)

theorem describes_quotedText : quotedText.Describes QuotedText := by
  refine ((Pattern.Describes.literal ['"']).andThen
    ((Pattern.Describes.anyNumber .betweenQuotes).andThen (.literal ['"']))).congr ?_
  intro text
  constructor
  · rintro ⟨_, _, rfl, rfl, inside, _, rfl, all, rfl⟩
    refine ⟨inside, ?_, rfl⟩
    intro member
    have := all '"' member
    simp [CharSet.contains] at this
  · rintro ⟨inside, plain, rfl⟩
    refine ⟨['"'], inside ++ ['"'], rfl, rfl, inside, ['"'], rfl, ?_, rfl⟩
    intro c member
    simp only [CharSet.contains, bne_iff_ne, ne_eq]
    rintro rfl
    exact plain member

theorem describes_textValue (quotable : Bool) :
    (textValue quotable).Describes (TextValue quotable) := by
  cases quotable with
  | false => exact describes_bareWord.congr (by simp [TextValue])
  | true =>
      refine (describes_quotedText.orElse describes_bareWord).congr ?_
      simp [TextValue]

theorem describes_digits : (Pattern.oneOrMore .digit).Describes Digits :=
  (Pattern.Describes.oneOrMore .digit).congr fun _ => Iff.rfl

theorem describes_pointDigits :
    pointDigits.Describes (fun text => ∃ fraction, text = '.' :: fraction ∧ Digits fraction) := by
  refine ((Pattern.Describes.literal ['.']).andThen describes_digits).congr ?_
  intro text
  constructor
  · rintro ⟨_, fraction, rfl, rfl, digits⟩
    exact ⟨fraction, rfl, digits⟩
  · rintro ⟨fraction, rfl, digits⟩
    exact ⟨['.'], fraction, rfl, rfl, digits⟩

/-- The part of a number after its sign. -/
def unsignedValue (whole : Bool) : Pattern :=
  if whole then .oneOrMore .digit
  else .grouped (.orElse (.andThen (.oneOrMore .digit) (.optional (.grouped pointDigits)))
    pointDigits)

theorem describes_unsignedValue (whole : Bool) :
    (unsignedValue whole).Describes (Unsigned whole) := by
  cases whole with
  | true => exact describes_digits.congr (by simp [Unsigned])
  | false =>
      refine (((describes_digits.andThen describes_pointDigits.grouped.optional).orElse
        describes_pointDigits).grouped).congr ?_
      intro text
      constructor
      · rintro (⟨integer, _, rfl, digits, ⟨fraction, rfl, digits'⟩ | rfl⟩ | ⟨fraction, rfl, digits⟩)
        · exact Or.inr ⟨rfl, integer, fraction, rfl, Or.inr digits, digits'⟩
        · exact Or.inl (by simpa using digits)
        · exact Or.inr ⟨rfl, [], fraction, rfl, Or.inl rfl, digits⟩
      · rintro (digits | ⟨_, integer, fraction, rfl, rfl | digits, digits'⟩)
        · exact Or.inl ⟨text, [], by simp, digits, Or.inr rfl⟩
        · exact Or.inr ⟨fraction, rfl, digits'⟩
        · exact Or.inl ⟨integer, '.' :: fraction, rfl, digits, Or.inl ⟨fraction, rfl, digits'⟩⟩

theorem describes_numberValue (signed whole : Bool) :
    (numberValue signed whole).Describes (NumberText signed whole) := by
  cases signed with
  | false => exact (describes_unsignedValue whole).congr (by simp [NumberText])
  | true =>
      refine ((Pattern.Describes.one .minus).optional.andThen
        (describes_unsignedValue whole)).congr ?_
      intro text
      constructor
      · rintro ⟨_, unsigned, rfl, ⟨c, rfl, isMinus⟩ | rfl, inside⟩
        · simp only [CharSet.contains, beq_iff_eq] at isMinus
          subst isMinus
          exact Or.inr ⟨rfl, unsigned, rfl, inside⟩
        · exact Or.inl inside
      · rintro (inside | ⟨_, unsigned, rfl, inside⟩)
        · exact ⟨[], text, rfl, Or.inr rfl, inside⟩
        · exact ⟨['-'], unsigned, rfl, Or.inl ⟨'-', rfl, rfl⟩, inside⟩

theorem describes_operators : operators.Describes OperatorText := by
  refine ((Pattern.Describes.literal ['<', '=']).orElse ((Pattern.Describes.literal ['>', '=']).orElse
    ((Pattern.Describes.literal ['<']).orElse ((Pattern.Describes.literal ['>']).orElse
      (.literal ['=']))))).congr ?_
  intro text
  constructor
  · rintro (rfl | rfl | rfl | rfl | rfl)
    · exact ⟨.lessOrEqual, by decide, rfl⟩
    · exact ⟨.greaterOrEqual, by decide, rfl⟩
    · exact ⟨.less, by decide, rfl⟩
    · exact ⟨.greater, by decide, rfl⟩
    · exact ⟨.equal, by decide, rfl⟩
  · rintro ⟨operator, given, rfl⟩
    cases operator with
    | absent => exact absurd rfl given
    | less => exact Or.inr (Or.inr (Or.inl rfl))
    | lessOrEqual => exact Or.inl rfl
    | equal => exact Or.inr (Or.inr (Or.inr (Or.inr rfl)))
    | greater => exact Or.inr (Or.inr (Or.inr (Or.inl rfl)))
    | greaterOrEqual => exact Or.inr (Or.inl rfl)

end FieldPattern

end SearchCommands
