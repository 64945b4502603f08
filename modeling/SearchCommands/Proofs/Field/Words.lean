import SearchCommands.Proofs.Grammar.Scans

/-!
# Words of fields are unambiguous

Aliases without quotation marks and operator characters can be told from what follows them.  If no
two fields share an alias, the first word after a place decides which field with aliases occurs
there, and then how far it reaches and which value it has.
-/

namespace SearchCommands

open Text FieldPattern

/-- A character of an operator. -/
def isOperatorCharacter (c : Char) : Bool := c == '<' || c == '=' || c == '>'

/-- A character that can stand in a number. -/
def isNumberCharacter (c : Char) : Bool := c.isDigit || c == '.' || c == '-'

namespace Text

theorem isCaseless_of_isOperatorCharacter {c : Char} (operator : isOperatorCharacter c = true) :
    isCaseless c = true := by
  simp only [isOperatorCharacter, Bool.or_eq_true, beq_iff_eq] at operator
  rcases operator with (rfl | rfl) | rfl
  · decide +kernel
  · decide +kernel
  · decide +kernel

/-- Two texts that are spelled alike fold to the same letters. -/
theorem SpelledAs.foldCase_eq {text text' found : List Char} (spelled : SpelledAs text found)
    (spelled' : SpelledAs text' found) : text.map foldCase = text'.map foldCase := by
  induction spelled generalizing text' with
  | nil =>
      cases spelled'
      rfl
  | cons same _ ih =>
      cases spelled' with
      | cons same' tail' =>
          simp only [sameLetter, beq_iff_eq] at same same'
          rw [List.map_cons, List.map_cons, same, same', ih tail']

/-- The letter is a word character in every spelling. -/
def isSteady (c : Char) : Bool :=
  0 < (foldCase c).toNat &&
    (spellings (foldCase c).toNat).all fun code => isWordCharacter (Char.ofNat code)

theorem isWordCharacter_of_steady {c d : Char} (steady : isSteady c = true)
    (same : sameLetter c d = true) : isWordCharacter d = true := by
  simp only [isSteady, Bool.and_eq_true, decide_eq_true_eq] at steady
  simp only [sameLetter, beq_iff_eq] at same
  have spelling := mem_spellings_of_foldCase steady.1 same.symm
  have wordCharacter := List.all_eq_true.mp steady.2 _ spelling
  rwa [Char.ofNat_toNat] at wordCharacter

theorem SpelledAs.getLast? {text found : List Char} (spelled : SpelledAs text found) {c : Char}
    (last : text.getLast? = some c) : ∃ d, found.getLast? = some d ∧ sameLetter c d = true := by
  induction spelled with
  | nil => cases last
  | cons same tail ih =>
      cases tail with
      | nil =>
          rw [List.getLast?_singleton, Option.some.injEq] at last
          exact ⟨_, rfl, last ▸ same⟩
      | cons same' tail =>
          rw [List.getLast?_cons_cons] at last
          rcases ih last with ⟨d, last', same⟩
          exact ⟨d, by rw [List.getLast?_cons_cons]; exact last', same⟩

end Text

namespace FieldPattern

theorem isNumberCharacter_of_digits {text : List Char} (digits : Digits text) :
    ∀ c ∈ text, isNumberCharacter c = true := by
  intro c member
  simp [isNumberCharacter, digits.2 c member]

theorem isNumberCharacter_of_unsigned {whole : Bool} {text : List Char}
    (unsigned : Unsigned whole text) : ∀ c ∈ text, isNumberCharacter c = true := by
  rcases unsigned with digits | ⟨_, integer, fraction, rfl, integerDigits, digits⟩
  · exact isNumberCharacter_of_digits digits
  · intro c member
    rcases List.mem_append.mp member with member | member
    · rcases integerDigits with rfl | integerDigits
      · cases member
      · exact isNumberCharacter_of_digits integerDigits c member
    · rcases List.mem_cons.mp member with rfl | member
      · rfl
      · exact isNumberCharacter_of_digits digits c member

theorem isNumberCharacter_of_numberText {signed whole : Bool} {text : List Char}
    (number : NumberText signed whole text) : ∀ c ∈ text, isNumberCharacter c = true := by
  rcases number with unsigned | ⟨_, unsigned, rfl, inside⟩
  · exact isNumberCharacter_of_unsigned unsigned
  · intro c member
    rcases List.mem_cons.mp member with rfl | member
    · rfl
    · exact isNumberCharacter_of_unsigned inside c member

theorem isOperatorCharacter_of_number {c : Char} (number : isNumberCharacter c = true) :
    isOperatorCharacter c = false := by
  rw [← Bool.not_eq_true]
  intro operator
  simp only [isOperatorCharacter, Bool.or_eq_true, beq_iff_eq] at operator
  rcases operator with (rfl | rfl) | rfl
  · exact absurd number (by decide)
  · exact absurd number (by decide)
  · exact absurd number (by decide)

theorem ne_quote_of_number {c : Char} (number : isNumberCharacter c = true) : c ≠ '"' := by
  rintro rfl
  exact absurd number (by decide)

theorem isBlank_of_number {c : Char} (number : isNumberCharacter c = true) :
    isBlank c = false := by
  rw [← Bool.not_eq_true]
  intro blank
  have none : (!isNumberCharacter c) = true :=
    forall_blank (p := fun c => !isNumberCharacter c) (by decide) blank
  rw [number] at none
  cases none

theorem noBlank_of_numberText {signed whole : Bool} {text : List Char}
    (number : NumberText signed whole text) : NoBlank text :=
  fun c member => isBlank_of_number (isNumberCharacter_of_numberText number c member)

theorem isOperatorCharacter_of_symbol (operator : Operator) :
    ∀ c ∈ operator.symbol.toList, isOperatorCharacter c = true := by
  cases operator <;> decide

theorem symbol_ne_nil {operator : Operator} (given : operator ≠ .absent) :
    operator.symbol.toList ≠ [] := by
  cases operator with
  | absent => exact absurd rfl given
  | less | lessOrEqual | equal | greater | greaterOrEqual => decide

theorem isBlank_of_operatorCharacter {c : Char} (operator : isOperatorCharacter c = true) :
    isBlank c = false := by
  simp only [isOperatorCharacter, Bool.or_eq_true, beq_iff_eq] at operator
  rcases operator with (rfl | rfl) | rfl <;> rfl

theorem noBlank_symbol (operator : Operator) : NoBlank operator.symbol.toList :=
  fun c member => isBlank_of_operatorCharacter (isOperatorCharacter_of_symbol operator c member)

/-- A name, an operator and a number can be told apart if the name has no operator character. -/
theorem number_unique {name name' digits digits' : List Char} {operator operator' : Operator}
    (nameOut : ∀ c ∈ name, isOperatorCharacter c = false)
    (nameOut' : ∀ c ∈ name', isOperatorCharacter c = false)
    (given : operator ≠ .absent) (given' : operator' ≠ .absent)
    (number : ∀ c ∈ digits, isNumberCharacter c = true)
    (number' : ∀ c ∈ digits', isNumberCharacter c = true)
    (same : name ++ (operator.symbol.toList ++ digits) =
      name' ++ (operator'.symbol.toList ++ digits')) :
    name = name' ∧ operator = operator' ∧ digits = digits' := by
  have startsOut {operator : Operator} (given : operator ≠ .absent) (digits : List Char) :
      ∀ c ∈ (operator.symbol.toList ++ digits).head?, (!isOperatorCharacter c) = false := by
    intro c member
    rcases List.exists_cons_of_ne_nil (symbol_ne_nil given) with ⟨d, more, split⟩
    rw [split, List.cons_append, List.head?_cons, Option.mem_some_iff] at member
    have inside := isOperatorCharacter_of_symbol operator d (by simp [split])
    rw [← member, inside]
    rfl
  rcases cut_unique (p := fun c => !isOperatorCharacter c)
    (fun c member => by simp [nameOut c member]) (fun c member => by simp [nameOut' c member])
    (startsOut given digits) (startsOut given' digits') same with ⟨names, rest⟩
  have numberOut {digits : List Char} (number : ∀ c ∈ digits, isNumberCharacter c = true) :
      ∀ c ∈ digits.head?, isOperatorCharacter c = false :=
    fun c member => isOperatorCharacter_of_number (number c (List.mem_of_mem_head? member))
  rcases cut_unique (isOperatorCharacter_of_symbol operator)
    (isOperatorCharacter_of_symbol operator')
    (numberOut number) (numberOut number') rest with ⟨symbols, digitsEq⟩
  refine ⟨names, ?_, digitsEq⟩
  rw [← Operator.ofSymbol_symbol operator, ← Operator.ofSymbol_symbol operator',
    String.toList_inj.mp symbols]

/-- The value of a text field reaches as far as it can in one way only. -/
theorem textValue_unique {quotable : Bool} {value value' rest rest' : List Char}
    (inside : TextValue quotable value) (inside' : TextValue quotable value')
    (ends : EndsWord rest) (ends' : EndsWord rest') (same : value ++ rest = value' ++ rest') :
    value = value' ∧ rest = rest' := by
  have quotedStart (more : List Char) {text : List Char} (quoted : QuotedText text) :
      (text ++ more).head? = some '"' := by
    rcases quoted with ⟨_, _, rfl⟩
    rfl
  have bareStart {text more : List Char} (bare : BareWord text) :
      (text ++ more).head? ≠ some '"' := by
    rcases bare with ⟨nonempty, _, noQuote, _⟩
    rcases List.exists_cons_of_ne_nil nonempty with ⟨c, tail, rfl⟩
    intro head
    rw [List.cons_append, List.head?_cons, Option.some.injEq] at head
    exact noQuote (head ▸ List.mem_cons_self)
  rcases inside with ⟨_, quoted⟩ | bare
  · rcases inside' with ⟨_, quoted'⟩ | bare'
    · rcases quoted with ⟨text, plain, rfl⟩
      rcases quoted' with ⟨text', plain', rfl⟩
      simp only [enclosed, List.cons_append, List.append_assoc, List.cons.injEq,
        true_and] at same
      have startsOut (more : List Char) : ∀ c ∈ ('"' :: more).head?, (c != '"') = false := by
        intro c member
        rw [List.head?_cons, Option.mem_some_iff] at member
        subst member
        rfl
      have insideIn {text : List Char} (plain : '"' ∉ text) : ∀ c ∈ text, (c != '"') = true := by
        intro c member
        rw [bne_iff_ne]
        rintro rfl
        exact plain member
      rcases cut_unique (insideIn plain) (insideIn plain') (startsOut rest) (startsOut rest') same
        with ⟨texts, rests⟩
      rw [List.cons.injEq] at rests
      exact ⟨by rw [texts], rests.2⟩
    · have head := quotedStart rest quoted
      rw [same] at head
      exact absurd head (bareStart bare')
  · rcases inside' with ⟨_, quoted'⟩ | bare'
    · have head := quotedStart rest' quoted'
      rw [← same] at head
      exact absurd head (bareStart bare)
    · exact word_unique bare.2.1 bare'.2.1 ends ends' same

/-- A value can be told from the blanks before it. -/
theorem TextValue.startsInked {quotable : Bool} {value : List Char}
    (inside : TextValue quotable value) (rest : List Char) : StartsInked (value ++ rest) := by
  rcases inside with ⟨_, text, _, rfl⟩ | bare
  · exact (trimmed_enclosed text).1.append (by simp [enclosed])
  · exact bare.2.1.startsInked.append bare.1

end FieldPattern

namespace Field

variable {field : Field}

theorem noBlank_number (proper : field.IsProper) {name digits : List Char}
    {signed whole : Bool} (introduced : field.Introduces name) (operator : Operator)
    (number : NumberText signed whole digits) :
    NoBlank (name ++ (operator.symbol.toList ++ digits)) :=
  (introduced.noBlank proper).append
    ((noBlank_symbol operator).append (noBlank_of_numberText number))

/-- The word of a flag or of a number is a word of the text. -/
theorem Spells.noBlank (proper : field.IsProper) (noText : ∀ quotable, field.kind ≠ .text quotable)
    {word : List Char} {value : FieldValue} (spells : field.Spells word value) : NoBlank word := by
  cases spells with
  | flag _ introduced => exact introduced.noBlank proper
  | text kind => exact absurd kind (noText _)
  | positional kind => exact absurd kind (noText _)
  | number _ introduced _ inside => exact noBlank_number proper introduced _ inside

/-- A field that reads no numbers has one word at a place, with one value. -/
theorem Spells.unique (proper : field.IsProper)
    (noNumber : ∀ signed whole, field.kind ≠ .number signed whole)
    {word word' rest rest' : List Char} {value value' : FieldValue}
    (spells : field.Spells word value) (spells' : field.Spells word' value')
    (ends : EndsWord rest) (ends' : EndsWord rest') (same : word ++ rest = word' ++ rest') :
    word = word' ∧ rest = rest' ∧ value = value' := by
  cases spells with
  | flag kind introduced =>
      have noText : ∀ quotable, field.kind ≠ .text quotable := by simp [kind]
      rcases Text.word_unique (introduced.noBlank proper) (spells'.noBlank proper noText) ends ends'
        same with ⟨words, rests⟩
      cases spells' with
      | flag => exact ⟨words, rests, rfl⟩
      | text kind' => exact absurd kind' (noText _)
      | positional kind' => exact absurd kind' (noText _)
      | number kind' => exact absurd kind' (noNumber _ _)
  | @text quotable name blanks inner kind aliased introduced nonempty blank inside =>
      cases spells' with
      | flag kind' => rw [kind] at kind'; cases kind'
      | @text quotable' name' blanks' inner' kind' _ introduced' nonempty' blank' inside' =>
          rw [kind] at kind'
          cases kind'
          simp only [List.append_assoc] at same
          rcases Text.word_unique (introduced.noBlank proper) (introduced'.noBlank proper)
            (EndsWord.append_of_ne_nil nonempty blank _)
            (EndsWord.append_of_ne_nil nonempty' blank' _) same with ⟨names, afterName⟩
          rcases blanks_unique blank blank' (inside.startsInked rest) (inside'.startsInked rest')
            afterName with ⟨gaps, afterGap⟩
          rcases textValue_unique inside inside' ends ends' afterGap with ⟨inners, rests⟩
          exact ⟨by rw [names, gaps, inners], rests, by rw [inners]⟩
      | positional _ positional => rw [positional] at aliased; cases aliased
      | number kind' => exact absurd kind' (noNumber _ _)
  | positional kind positional inside =>
      cases spells' with
      | flag kind' => rw [kind] at kind'; cases kind'
      | text _ aliased => rw [positional] at aliased; cases aliased
      | positional kind' _ inside' =>
          rw [kind] at kind'
          cases kind'
          rcases textValue_unique inside inside' ends ends' same with ⟨words, rests⟩
          exact ⟨words, rests, by rw [words]⟩
      | number kind' => exact absurd kind' (noNumber _ _)
  | number kind => exact absurd kind (noNumber _ _)

/-- A field has one word at a place. -/
theorem Spells.word_unique (proper : field.IsProper) {word word' rest rest' : List Char}
    {value value' : FieldValue} (spells : field.Spells word value)
    (spells' : field.Spells word' value') (ends : EndsWord rest) (ends' : EndsWord rest')
    (same : word ++ rest = word' ++ rest') : word = word' ∧ rest = rest' := by
  by_cases noText : ∀ quotable, field.kind ≠ .text quotable
  · exact Text.word_unique (spells.noBlank proper noText) (spells'.noBlank proper noText) ends ends'
      same
  · have noNumber : ∀ signed whole, field.kind ≠ .number signed whole := by
      intro signed whole kind
      exact noText fun quotable kind' => by rw [kind] at kind'; cases kind'
    rcases spells.unique proper noNumber spells' ends ends' same with ⟨words, rests, _⟩
    exact ⟨words, rests⟩

end Field

end SearchCommands
