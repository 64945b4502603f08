import SearchCommands.Proofs.Grammar.Alike
import SearchCommands.Proofs.Grammar.Preference
import SearchCommands.Proofs.Pattern.LetterCase

/-!
# Grammars and letter case

Two inputs that differ in their letter case alone have the same tokens at the same places, by one
simulation from the pattern of a field to the scan of the input.  The main statement is
`Grammar.HasBuiltInRules.readings_sameButCase`.
-/

namespace SearchCommands

open Text Pattern FieldPattern

namespace Text

theorem noLetter_of_number {c : Char} (number : isNumberCharacter c = true) :
    c.isAlpha = false := by
  simp only [isNumberCharacter, Bool.or_eq_true, beq_iff_eq] at number
  rcases number with (digit | rfl) | rfl
  · simp only [Char.isDigit, decide_eq_true_eq, Bool.and_eq_true] at digit
    have high : c.toNat ≤ 57 := UInt32.le_iff_toNat_le.mp digit.2
    have small : ∀ n : Fin 58, (Char.ofNat n).isAlpha = false := by decide
    have own := small ⟨c.toNat, by omega⟩
    rwa [Char.ofNat_toNat] at own
  · rfl
  · rfl

theorem noLetter_of_operator {c : Char} (operator : isOperatorCharacter c = true) :
    c.isAlpha = false := by
  simp only [isOperatorCharacter, Bool.or_eq_true, beq_iff_eq] at operator
  rcases operator with (rfl | rfl) | rfl <;> rfl

end Text

/-- Texts that differ at most in the case of their letters, and otherwise the same values. -/
inductive FieldValue.SameButCase : FieldValue → FieldValue → Prop where
  | missing : SameButCase missing missing
  | flag : SameButCase flag flag
  | text {text text' : String} (same : Text.SameButCase text.toList text'.toList) :
      SameButCase (.text text) (.text text')
  | comparison (comparison : Comparison) :
      SameButCase (.comparison comparison) (.comparison comparison)

/-- The same field at the same place. -/
structure Token.SameButCase (token token' : Token) : Prop where
  field : token.field = token'.field
  start : token.start.SameButCase token'.start
  stop : token.stop.SameButCase token'.stop
  value : token.value.SameButCase token'.value

/-- The same field on the same bytes. -/
structure Capture.SameButCase (capture capture' : Capture) : Prop where
  field : capture.field = capture'.field
  start : capture.start = capture'.start
  stop : capture.stop = capture'.stop
  value : capture.value.SameButCase capture'.value

/-- Captured parts give the same values, up to the letter case of texts. -/
theorem Field.valueOf_sameButCase {field : Field} {way way' : Way}
    (same : way.Alike Cursor.SameButCase way') {start stop : Cursor}
    (occurs : field.OccursAt start stop (field.valueOf way)) :
    (field.valueOf way).SameButCase (field.valueOf way') := by
  have captured (name : String) :
      Text.SameButCase (capturedText way name) (capturedText way' name) :=
    same.capturedText .nil (fun sameStart sameStop => sameStart.textTo sameStop) name
  cases kind : field.kind with
  | flag =>
      simp only [valueOf, kind]
      exact .flag
  | text quotable =>
      simp only [valueOf, kind]
      apply FieldValue.SameButCase.text
      rw [String.toList_ofList, String.toList_ofList]
      exact (captured _).unquote
  | number signed whole =>
      rcases captured_of_number kind occurs with ⟨operator, symbol, digits⟩
      have sameSymbol := (captured (operatorGroup field.name)).eq_of_noLetter
        fun c member => noLetter_of_operator (isOperatorCharacter_of_symbol operator c
          (symbol ▸ member))
      have sameDigits := (captured (numberGroup field.name)).eq_of_noLetter
        fun c member => noLetter_of_number (isNumberCharacter_of_numberText digits c member)
      simp only [valueOf, kind, sameSymbol, sameDigits]
      exact .comparison _

theorem Field.tokenAt?_sameButCase {field : Field} (proper : field.IsProper)
    {cursor cursor' : Cursor} (same : cursor.SameButCase cursor') :
    Option.Rel Token.SameButCase (field.tokenAt? cursor) (field.tokenAt? cursor') := by
  have ways := Preserves.field_case field same
  have first : Option.Rel (Way.Alike Cursor.SameButCase) (field.pattern.match? cursor)
      (field.pattern.match? cursor') := by
    rw [match?, match?]
    generalize field.pattern.ways false cursor = here, field.pattern.ways false cursor' = there
      at ways
    cases ways with
    | nil => exact .none
    | cons first _ => exact .some first
  rw [Field.tokenAt?, Field.tokenAt?]
  cases preferred : field.pattern.match? cursor with
  | none =>
      rw [preferred] at first
      generalize field.pattern.match? cursor' = preferred' at first
      cases first
      exact .none
  | some way =>
      rcases tokenAt?_of_match? proper preferred with ⟨_, _, occurs⟩
      rw [preferred] at first
      generalize field.pattern.match? cursor' = preferred' at first
      cases first with
      | @some _ way' sameWay =>
          have sameGroup := sameWay.group? field.name
          rw [Option.bind_some, Option.bind_some]
          generalize way.group? field.name = group, way'.group? field.name = group' at sameGroup
          cases sameGroup with
          | none => exact .none
          | some same => exact .some ⟨rfl, same.start, same.stop, valueOf_sameButCase sameWay occurs⟩

namespace Grammar

variable {grammar : Grammar}

theorem tokenAt?_sameButCase (grammar : Grammar) {cursor cursor' : Cursor}
    (same : cursor.SameButCase cursor') :
    Option.Rel Token.SameButCase (grammar.tokenAt? cursor) (grammar.tokenAt? cursor') := by
  apply tokenAt?_related .none
  · intro found found' alike
    cases alike with
    | none | some => simp
  · intro field member
    exact Field.tokenAt?_sameButCase (isProper member) same

/-- A scan is one of the other text, with the same tokens. -/
theorem Scans.exists_sameButCase {cursor cursor' : Cursor} {tokens : List Token}
    (scans : grammar.Scans cursor tokens) (same : cursor.SameButCase cursor') :
    ∃ tokens', grammar.Scans cursor' tokens' ∧
      List.Forall₂ Token.SameButCase tokens tokens' := by
  induction scans generalizing cursor' with
  | done before =>
      rcases cursor' with ⟨before', after'⟩
      rcases same with ⟨_, sameAfter⟩
      cases sameAfter
      exact ⟨[], .done before', .nil⟩
  | @pass before after c tokens nothing rest ih =>
      have found := grammar.tokenAt?_sameButCase same
      have inside := same.insideQuotes_eq
      rcases cursor' with ⟨before', after'⟩
      rcases same with ⟨sameBefore, sameAfter⟩
      cases sameAfter with
      | @cons _ d _ after' first sameRest =>
          have step : Cursor.SameButCase ⟨c :: before, after⟩ ⟨d :: before', after'⟩ :=
            ⟨.cons first sameBefore, sameRest⟩
          rcases ih step with ⟨tokens', scans', alike⟩
          refine ⟨tokens', .pass ?_ scans', alike⟩
          rcases nothing with none | isInside
          · left
            rw [none] at found
            generalize grammar.tokenAt? ⟨before', d :: after'⟩ = found' at found
            cases found
            rfl
          · exact Or.inr (inside ▸ isInside)
  | @take cursor token tokens found outside rest ih =>
      have found' := grammar.tokenAt?_sameButCase same
      rw [found] at found'
      generalize atPlace : grammar.tokenAt? cursor' = here at found'
      cases found' with
      | some sameToken =>
          rcases ih sameToken.stop with ⟨tokens', scans', alike⟩
          exact ⟨_, .take atPlace (same.insideQuotes_eq ▸ outside) scans', .cons sameToken alike⟩

theorem uncovered_sameButCase {cursor cursor' : Cursor} (same : cursor.SameButCase cursor')
    {tokens tokens' : List Token} (alike : List.Forall₂ Token.SameButCase tokens tokens') :
    Text.SameButCase (Token.uncovered cursor tokens) (Token.uncovered cursor' tokens') := by
  induction alike generalizing cursor cursor' with
  | nil => exact same.after
  | cons first _ ih => exact (same.textTo first.start).append (ih first.stop)

variable {input input' : String}

/-- Inputs that differ in their letter case alone have the same captures and leftover, up to the
letter case of texts. -/
theorem captures_sameButCase (grammar : Grammar)
    (same : Text.SameButCase input.toList input'.toList) :
    List.Forall₂ Capture.SameButCase (grammar.captures input) (grammar.captures input') ∧
      Text.SameButCase (grammar.leftover input).toList (grammar.leftover input').toList := by
  have start : (Cursor.ofText input.toList).SameButCase (Cursor.ofText input'.toList) :=
    ⟨.nil, same⟩
  rcases (grammar.scans_tokens input).exists_sameButCase start with ⟨tokens', scans', alike⟩
  rw [← tokens_eq_iff] at scans'
  subst scans'
  constructor
  · rw [captures, captures, List.forall₂_map_left_iff, List.forall₂_map_right_iff]
    exact alike.imp fun _ _ token =>
      ⟨token.field, token.start.offset_eq, token.stop.offset_eq, token.value⟩
  · rw [leftover, leftover, String.toList_ofList, String.toList_ofList]
    exact (uncovered_sameButCase start alike).trim

end Grammar

theorem FieldValue.ofCaptured_sameButCase {found found' : List FieldValue}
    (alike : List.Forall₂ SameButCase found found') :
    SameButCase (ofCaptured found) (ofCaptured found') := by
  cases alike with
  | nil => exact .missing
  | cons first rest =>
      cases first with
      | missing => exact .missing
      | flag => exact .flag
      | text same => exact .text same
      | comparison comparison =>
          cases rest with
          | nil => exact .comparison _
          | cons second _ =>
              cases second with
              | missing | flag | text | comparison => exact .comparison _

/-- Letter case does not matter for what is captured where, for numbers and flags and for the
verdict; texts and leftovers differ in it as the inputs do. -/
theorem Grammar.HasBuiltInRules.readings_sameButCase {grammar : Grammar}
    (builtIn : grammar.HasBuiltInRules) {input input' : String}
    (same : EqualUpToCase input input') :
    ResultsAlike (Failure.Alike EqualUpToCase)
      (Reading.Alike FieldValue.SameButCase Capture.SameButCase EqualUpToCase)
      (grammar.read input) (grammar.read input') := by
  rcases grammar.captures_sameButCase (sameButCase_iff.mpr same) with ⟨captures, leftover⟩
  exact builtIn.read_alike Capture.SameButCase.field Capture.SameButCase.value
    FieldValue.ofCaptured_sameButCase captures (sameButCase_iff.mp leftover)

end SearchCommands
