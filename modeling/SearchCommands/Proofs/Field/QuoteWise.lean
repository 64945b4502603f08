import SearchCommands.Proofs.Field.Words
import SearchCommands.Proofs.Pattern.QuoteWise

/-!
# Quotation marks in fields

A field whose aliases hold no quotation mark reads such marks in pairs only.  Moreover, a pair is
never read for anything but the value of a text, which then is the pair and nothing else.
-/

namespace SearchCommands

open Text Pattern FieldPattern

namespace Pattern.QuoteWise

theorem anyOf {patterns : List Pattern} (each : ∀ pattern ∈ patterns, pattern.QuoteWise) :
    (Pattern.anyOf patterns).QuoteWise := by
  induction patterns with
  | nil => exact .empty
  | cons first rest ih =>
      cases rest with
      | nil => exact each first (by simp)
      | cons second rest =>
          apply QuoteWise.orElse
          · exact each first (by simp)
          · exact ih fun pattern member => each pattern (List.mem_cons_of_mem _ member)

theorem opening : FieldPattern.opening.QuoteWise :=
  .grouped (.orElse .inputStart (.oneOrMore (by decide)))

theorem closing : FieldPattern.closing.QuoteWise :=
  .grouped (.orElse (.one (by decide)) .inputEnd)

theorem textValue (quotable : Bool) : (FieldPattern.textValue quotable).QuoteWise := by
  have bareWord : FieldPattern.bareWord.QuoteWise :=
    .andThen (.one (by decide)) (.anyNumber (by decide))
  cases quotable with
  | true => exact .orElse .quotedText bareWord
  | false => exact bareWord

theorem operators : FieldPattern.operators.QuoteWise := by
  apply anyOf
  intro pattern member
  rcases List.mem_map.mp member with ⟨symbol, symbolMember, rfl⟩
  apply QuoteWise.literal
  revert symbol
  decide

theorem numberValue (signed whole : Bool) : (FieldPattern.numberValue signed whole).QuoteWise := by
  have digits : (Pattern.oneOrMore .digit).QuoteWise := .oneOrMore (by decide)
  have pointDigits : FieldPattern.pointDigits.QuoteWise := .andThen (.literal (by decide)) digits
  have unsigned : (unsignedValue whole).QuoteWise := by
    cases whole with
    | true => exact digits
    | false => exact .grouped (.orElse (.andThen digits (.optional (.grouped pointDigits)))
        pointDigits)
  cases signed with
  | true => exact .andThen (.optional (.one (by decide))) unsigned
  | false => exact unsigned

end Pattern.QuoteWise

/-- The text between two places is what stands before the text after the second one. -/
theorem Cursor.textTo_eq {start stop : Cursor} {text : List Char}
    (split : start.after = text ++ stop.after) : start.textTo stop = text := by
  rw [textTo, split, List.length_append, Nat.add_sub_cancel, List.take_left]

/-- A text that stands for an operator is the symbol of that operator. -/
theorem Operator.symbol_ofSymbol {text : String} (given : ofSymbol text ≠ absent) :
    (ofSymbol text).symbol = text := by
  revert given
  unfold ofSymbol
  split
  all_goals intro given
  all_goals first | rfl | exact absurd rfl given

namespace Field

/-- No alias of the field has a quotation mark in it. -/
def IsQuoteFree (field : Field) : Prop := ∀ name ∈ field.aliases, '"' ∉ name.toList

variable {field : Field}

theorem IsQuoteFree.anyAlias (quoteFree : field.IsQuoteFree) :
    (FieldPattern.anyAlias field.aliases).QuoteWise := by
  apply QuoteWise.anyCase
  apply QuoteWise.anyOf
  intro pattern member
  rcases List.mem_map.mp member with ⟨name, nameMember, rfl⟩
  have plain := quoteFree name (mem_sortAliases.mp nameMember)
  unfold oneAlias
  split
  · exact .andThen (.literal plain) .wordEdge
  · exact .literal plain

/-- A field without quotation marks in its aliases reads them in pairs only. -/
theorem IsQuoteFree.quoteWise (quoteFree : field.IsQuoteFree) : field.pattern.QuoteWise := by
  have aliases := quoteFree.anyAlias
  refine .andThen (.captured ?_) .closing
  unfold body
  split
  · exact .andThen .opening aliases
  · rename_i quotable _
    have value : (captured (textGroup field.name) (textValue quotable)).QuoteWise :=
      .captured (.textValue quotable)
    split
    · exact .andThen .inputStart (.andThen (.anyNumber (by decide)) value)
    · exact .andThen .opening (.andThen aliases (.andThen (.oneOrMore (by decide)) value))
  · rename_i signed whole _
    exact .andThen .opening (.andThen aliases
      (.andThen (.captured .operators) (.captured (.numberValue signed whole))))

theorem IsQuoteFree.introduces (quoteFree : field.IsQuoteFree) {found : List Char}
    (introduced : field.Introduces found) : '"' ∉ found := by
  rcases introduced with ⟨name, member, spelled, _⟩
  exact spelled.noQuote (quoteFree name member)

theorem noQuote_of_allBlank {text : List Char} (blank : AllBlank text) : '"' ∉ text :=
  List.count_eq_zero.mp blank.count_quote

/-- A word of a field that reads no text holds no quotation mark. -/
theorem IsQuoteFree.noQuote_spells (quoteFree : field.IsQuoteFree)
    (noText : ∀ quotable, field.kind ≠ .text quotable) {word : List Char} {value : FieldValue}
    (spells : field.Spells word value) : '"' ∉ word := by
  cases spells with
  | flag _ introduced => exact quoteFree.introduces introduced
  | text kind => exact absurd kind (noText _)
  | positional kind => exact absurd kind (noText _)
  | number _ introduced _ inside =>
      simp only [List.mem_append, not_or]
      refine ⟨quoteFree.introduces introduced, ?_, ?_⟩
      · intro member
        exact absurd (isOperatorCharacter_of_symbol _ '"' member) (by decide)
      · intro member
        exact ne_quote_of_number (isNumberCharacter_of_numberText inside '"' member) rfl

/-- A word of a field has no quotation mark in it, or it ends with a text in quotation marks. -/
theorem IsQuoteFree.quotes_spells (quoteFree : field.IsQuoteFree) {word : List Char}
    {value : FieldValue} (spells : field.Spells word value) :
    '"' ∉ word ∨ ∃ lead inside, '"' ∉ lead ∧ '"' ∉ inside ∧ word = lead ++ enclosed inside := by
  cases spells with
  | flag kind introduced =>
      exact Or.inl (quoteFree.noQuote_spells (by simp [kind]) (.flag kind introduced))
  | @text _ name blanks value _ _ introduced _ blank inside =>
      have plainLead : '"' ∉ name ++ blanks := by
        rw [List.mem_append, not_or]
        exact ⟨quoteFree.introduces introduced, noQuote_of_allBlank blank⟩
      rw [← List.append_assoc]
      rcases inside with ⟨_, inside, plain, rfl⟩ | bare
      · exact Or.inr ⟨_, inside, plainLead, plain, rfl⟩
      · left
        rw [List.mem_append, not_or]
        exact ⟨plainLead, bare.2.2.1⟩
  | positional _ _ inside =>
      rcases inside with ⟨_, inside, plain, rfl⟩ | bare
      · exact Or.inr ⟨[], inside, List.not_mem_nil, plain, rfl⟩
      · exact Or.inl bare.2.2.1
  | number kind introduced given inside =>
      left
      exact quoteFree.noQuote_spells (by simp [kind]) (.number kind introduced given inside)

/-- Every word of a field has its quotation marks in pairs. -/
theorem IsQuoteFree.even_spells (quoteFree : field.IsQuoteFree) {word : List Char}
    {value : FieldValue} (spells : field.Spells word value) : word.count '"' % 2 = 0 := by
  rcases quoteFree.quotes_spells spells with plain | ⟨lead, inside, plainLead, plain, rfl⟩
  · rw [List.count_eq_zero.mpr plain]
  · rw [List.count_append, List.count_eq_zero.mpr plainLead, count_enclosed plain]

/-- An occurrence of a field that reads no text holds no quotation mark. -/
theorem IsQuoteFree.occursAt (quoteFree : field.IsQuoteFree) (noText : ∀ quotable,
    field.kind ≠ .text quotable) {start stop : Cursor} {value : FieldValue}
    (occurs : field.OccursAt start stop value) : '"' ∉ start.textTo stop := by
  rcases occurs with ⟨blanks, word, rest, split, blank, spells, _, _, rfl⟩
  have text : start.textTo ⟨word.reverse ++ (blanks.reverse ++ start.before), rest⟩ =
      blanks ++ word := by
    apply Cursor.textTo_eq
    rw [split, List.append_assoc]
  rw [text, List.mem_append, not_or]
  exact ⟨noQuote_of_allBlank blank, quoteFree.noQuote_spells noText spells⟩

/-- The ways to match a text field: after a part without quotation marks comes the value, which is
captured. -/
theorem IsQuoteFree.text_of_mem_ways (quoteFree : field.IsQuoteFree) (proper : field.IsProper)
    {quotable : Bool} (kind : field.kind = .text quotable) {cursor : Cursor} {way : Way}
    (member : way ∈ field.pattern.ways false cursor) :
    ∃ place stop, cursor.Reaches place ∧ '"' ∉ cursor.textTo place ∧
      TextValue quotable (place.textTo stop) ∧
      way.groups = [⟨field.name, cursor, stop⟩, ⟨textGroup field.name, place, stop⟩] := by
  rcases partedAt_of_mem_ways proper member with
    ⟨_, _, groups, blanks, word, rest, split, blank, parted, _, _, rfl⟩
  rw [groups]
  generalize field.valueOf way = value at parted
  cases parted with
  | flag isFlag => rw [kind] at isFlag; cases isFlag
  | number isNumber => rw [kind] at isNumber; cases isNumber
  | positional isText _ inside =>
      rw [kind, FieldKind.text.injEq] at isText
      subst isText
      refine ⟨⟨blanks.reverse ++ cursor.before, word ++ rest⟩, _, ⟨blanks, split, rfl⟩, ?_, ?_, rfl⟩
      · rw [Cursor.textTo_eq split]
        exact noQuote_of_allBlank blank
      · rw [Cursor.textTo_split]
        exact inside
  | @text _ name gap value isText _ introduced _ gapBlank inside =>
      rw [kind, FieldKind.text.injEq] at isText
      subst isText
      have lead : cursor.after = (blanks ++ (name ++ gap)) ++ (value ++ rest) := by simp [split]
      refine ⟨⟨gap.reverse ++ (name.reverse ++ (blanks.reverse ++ cursor.before)), value ++ rest⟩,
        ⟨value.reverse ++ (gap.reverse ++ (name.reverse ++ (blanks.reverse ++ cursor.before))),
          rest⟩, ⟨_, lead, by simp⟩, ?_, ?_, by simp [Group.ofText]⟩
      · rw [Cursor.textTo_eq lead]
        simp only [List.mem_append, not_or]
        exact ⟨noQuote_of_allBlank blank, quoteFree.introduces introduced,
          noQuote_of_allBlank gapBlank⟩
      · rw [Cursor.textTo_split]
        exact inside

/-- The parts of a captured number are an operator and digits. -/
theorem captured_of_number {signed whole : Bool}
    (kind : field.kind = .number signed whole) {start stop : Cursor} {way : Way}
    (occurs : field.OccursAt start stop (field.valueOf way)) :
    ∃ operator : Operator,
      capturedText way (operatorGroup field.name) = operator.symbol.toList ∧
        NumberText signed whole (capturedText way (numberGroup field.name)) := by
  rcases occurs with ⟨_, _, _, _, _, spells, _⟩
  rcases spells.of_number kind with ⟨_, operator, digits, _, valueEq, _, given, inside⟩
  simp only [valueOf, kind, boundOf, FieldValue.comparison.injEq, Comparison.single.injEq,
    Bound.mk.injEq, String.ofList_inj] at valueEq
  rcases valueEq with ⟨operatorEq, digitsEq⟩
  refine ⟨operator, ?_, digitsEq ▸ inside⟩
  have symbol := Operator.symbol_ofSymbol (operatorEq ▸ given)
  rw [← operatorEq, symbol, String.toList_ofList]

/-- A number that a field captured has no quotation mark in its parts. -/
theorem noQuote_of_number {signed whole : Bool} (kind : field.kind = .number signed whole)
    {start stop : Cursor} {way : Way} (occurs : field.OccursAt start stop (field.valueOf way)) :
    '"' ∉ capturedText way (operatorGroup field.name) ∧
      '"' ∉ capturedText way (numberGroup field.name) := by
  rcases captured_of_number kind occurs with ⟨operator, symbol, number⟩
  rw [symbol]
  constructor
  · intro member
    exact absurd (isOperatorCharacter_of_symbol operator '"' member) (by decide)
  · intro member
    exact ne_quote_of_number (isNumberCharacter_of_numberText number '"' member) rfl

end Field

end SearchCommands
