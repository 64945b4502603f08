import SearchCommands.Proofs.Search.Words

/-!
# Composed commands in the two phases

The first phase takes the criteria of a composed command, wherever they stand, and what it leaves
over is again a composed command: the name of the player and the other items.  The second phase
takes all of that.
-/

namespace SearchCommands

open Text FieldPattern

/-- Pieces after blanks are separated. -/
theorem separated_of_gaps {before : List Char} {pieces : List Piece}
    (blank : ∀ piece ∈ pieces, AllBlank piece.gap) (some : ∀ piece ∈ pieces, piece.gap ≠ []) :
    Separated before pieces := by
  induction pieces generalizing before with
  | nil => trivial
  | cons piece rest ih =>
      refine ⟨blank piece (by simp), Or.inr (some piece (by simp)), ih ?_ ?_⟩
      · exact fun other member => blank other (List.mem_cons_of_mem _ member)
      · exact fun other member => some other (List.mem_cons_of_mem _ member)

/-- At the start of the input, pieces are separated if the others than the first are. -/
theorem separated_of_tail {pieces : List Piece} (blank : ∀ piece ∈ pieces, AllBlank piece.gap)
    (some : ∀ piece ∈ pieces.tail, piece.gap ≠ []) : Separated [] pieces := by
  cases pieces with
  | nil => trivial
  | cons piece rest =>
      refine ⟨blank piece (by simp), Or.inl rfl, separated_of_gaps ?_ some⟩
      exact fun other member => blank other (List.mem_cons_of_mem _ member)

/-- The pieces without the blanks before the first one. -/
def startOf : List Piece → List Piece
  | [] => []
  | piece :: rest => { piece with gap := [] } :: rest

theorem exists_of_mem_startOf {pieces : List Piece} {piece : Piece}
    (member : piece ∈ startOf pieces) :
    ∃ own gap, own ∈ pieces ∧ piece = { own with gap := gap } := by
  cases pieces with
  | nil => cases member
  | cons first rest =>
      rcases List.mem_cons.mp member with rfl | member
      · exact ⟨first, [], by simp, rfl⟩
      · exact ⟨piece, piece.gap, List.mem_cons_of_mem _ member, rfl⟩

@[simp]
theorem tags_startOf (pieces : List Piece) :
    (startOf pieces).filterMap Piece.tag = pieces.filterMap Piece.tag := by
  cases pieces <;> rfl

theorem endsInked_laid {pieces : List Piece} (nonempty : pieces ≠ [])
    (inked : ∀ piece ∈ pieces, EndsInked piece.text ∧ piece.text ≠ []) :
    EndsInked (laid pieces) ∧ laid pieces ≠ [] := by
  induction pieces with
  | nil => exact absurd rfl nonempty
  | cons piece rest ih =>
      rcases inked piece (by simp) with ⟨ends, some⟩
      have shape : laid (piece :: rest) = piece.gap ++ (piece.text ++ laid rest) := by
        simp [laid]
      rw [shape]
      by_cases last : rest = []
      · subst last
        refine ⟨?_, by simp [some]⟩
        simpa [laid] using ends.append some
      · rcases ih last fun other member => inked other (List.mem_cons_of_mem _ member) with
          ⟨restEnds, restSome⟩
        refine ⟨?_, by simp [some]⟩
        rw [← List.append_assoc]
        exact restEnds.append restSome

/-- Trimming takes the blanks before the first piece and those behind the last one. -/
theorem trim_laid {pieces : List Piece} {tail : List Char} (tailBlank : AllBlank tail)
    (blank : ∀ piece ∈ pieces, AllBlank piece.gap)
    (inked : ∀ piece ∈ pieces, Trimmed piece.text ∧ piece.text ≠ []) :
    trim (laid pieces ++ tail) = laid (startOf pieces) := by
  cases pieces with
  | nil =>
      change trim tail = []
      exact trim_eq_nil_iff.mpr tailBlank
  | cons piece rest =>
      have shape : laid (piece :: rest) = piece.gap ++ laid (startOf (piece :: rest)) := by
        simp [laid, startOf]
      rw [shape]
      apply trim_eq (blank piece (by simp)) _ tailBlank
      constructor
      · have first := inked piece (by simp)
        have core : laid (startOf (piece :: rest)) = piece.text ++ laid rest := by
          simp [laid, startOf]
        rw [core]
        exact first.1.1.append first.2
      · refine (endsInked_laid (by simp [startOf]) ?_).1
        intro other member
        rcases List.mem_cons.mp member with rfl | member
        · exact ⟨(inked piece (by simp)).1.2, (inked piece (by simp)).2⟩
        · have restInked := inked other (List.mem_cons_of_mem _ member)
          exact ⟨restInked.1.2, restInked.2⟩

namespace Search

open Beatmap

/-- A word of a composed command. -/
inductive Word where
  | username (value : Operand)
  | item (item : Item)

namespace Word

/-- What is typed for the word. -/
def typed : Word → List Char
  | username value => value.text
  | item own => own.typed

/-- The word can be typed by a user. -/
def IsValid : Word → Prop
  | username value => value.IsValid ∧ ¬ IsPlaycount value.text
  | item own => own.IsValid

/-- The pieces of the word, of which the first phase takes the tagged ones. -/
def pieces (gap : List Char) : Word → List Piece
  | username value => [⟨gap, value.text, none⟩]
  | item (.criterion measure name operator digits) =>
      [⟨gap, name ++ (operator.symbol.toList ++ digits),
        some (measure.field, Field.boundOf operator digits)⟩]
  | item (.exact name) => [⟨gap, name, none⟩]
  | item (.text _ name inner value) => [⟨gap, name, none⟩, ⟨inner, value.text, none⟩]
  | item (.playcount name operator digits) =>
      [⟨gap, name ++ (operator.symbol.toList ++ digits), none⟩]

/-- What the second phase captures for the word. -/
def capture? : Word → Option (String × FieldValue)
  | username value => some ("username", .text value.content)
  | item (.criterion ..) => none
  | item (.exact _) => some ("exact", .flag)
  | item (.text part _ _ value) => some (part.field, .text value.content)
  | item (.playcount _ operator digits) => some ("playcount", Field.boundOf operator digits)

/-- The word as a piece of what the first phase leaves over. -/
def kept (gap : List Char) (word : Word) : Option Piece :=
  word.capture?.map fun entry => ⟨gap, word.typed, some entry⟩

theorem laid_pieces (gap : List Char) (word : Word) :
    laid (word.pieces gap) = gap ++ word.typed := by
  rcases word with value | (_ | _ | _ | _) <;> simp [pieces, laid, typed, Item.typed]

theorem laid_untagged (gap : List Char) (word : Word) :
    laid ((word.pieces gap).filter fun piece => piece.tag.isNone) =
      laid (word.kept gap).toList := by
  rcases word with value | (_ | _ | _ | _) <;>
    simp [pieces, laid, kept, capture?, typed, Item.typed]

theorem exists_pieces (gap : List Char) (word : Word) :
    ∃ piece rest, word.pieces gap = piece :: rest ∧ piece.gap = gap := by
  rcases word with value | (_ | _ | _ | _) <;> exact ⟨_, _, rfl, rfl⟩

/-- The blanks inside a word are blanks, and there are some. -/
theorem gaps_of_valid {word : Word} (valid : word.IsValid) (gap : List Char) :
    ∀ piece ∈ (word.pieces gap).tail, AllBlank piece.gap ∧ piece.gap ≠ [] := by
  intro piece member
  rcases word with value | (_ | _ | ⟨part, name, inner, value⟩ | _)
  · cases member
  · cases member
  · cases member
  · rcases valid with ⟨_, _, nonempty, blank, _⟩
    simp only [pieces, List.tail_cons, List.mem_singleton] at member
    subst member
    exact ⟨blank, nonempty⟩
  · cases member

/-- The first phase takes exactly the criteria. -/
theorem fits_pieces {word : Word} (valid : word.IsValid) (gap : List Char) :
    ∀ piece ∈ word.pieces gap, Criteria.grammar.Fits piece := by
  have nameFits {part : Part} {name : List Char} {gap : List Char}
      (spelled : ∃ written ∈ part.aliases, SpelledAs written.toList name) :
      Criteria.grammar.Fits ⟨gap, name, none⟩ := by
    have introduced := introduces part spelled
    have proper := Grammar.isProper (declaration_mem part)
    refine Criteria.fits_none (Or.inl ⟨introduced.ne_nil proper, introduced.noBlank proper,
      isPlain.noQuote (declaration_mem part) introduced⟩) ?_
    intro measure value spells
    exact not_isCriterion_of_noOperator
      (isPlain.isUnambiguous.noOperator_introduces (declaration_mem part) introduced)
      (isCriterion_of_spells spells)
  have valueFits {value : Operand} {gap : List Char} (valid : value.IsValid) :
      Criteria.grammar.Fits ⟨gap, value.text, none⟩ := by
    refine Criteria.fits_none (Operand.isPiece valid) ?_
    intro measure inner spells
    exact Operand.not_isCriterion valid (isCriterion_of_spells spells)
  rcases word with value | (⟨measure, name, operator, digits⟩ | name | ⟨part, name, inner, value⟩ |
    ⟨name, operator, digits⟩)
  · intro piece member
    rw [List.mem_singleton.mp member]
    exact valueFits valid.1
  · intro piece member
    rw [List.mem_singleton.mp member]
    rcases valid with ⟨⟨written, writtenMember, spelled⟩, given, number⟩
    exact Criteria.fits_some (Measure.spells writtenMember spelled given number)
  · intro piece member
    rw [List.mem_singleton.mp member]
    exact nameFits valid
  · rcases valid with ⟨_, spelled, _, _, valueValid⟩
    intro piece member
    rcases List.mem_cons.mp member with rfl | member
    · exact nameFits spelled
    · rw [List.mem_singleton.mp member]
      exact valueFits valueValid
  · intro piece member
    rw [List.mem_singleton.mp member]
    rcases valid with ⟨⟨written, writtenMember, spelled⟩, given, number⟩
    have introduced := introduces .playcount ⟨written, writtenMember, spelled⟩
    have proper := Grammar.isProper (declaration_mem .playcount)
    have leads : Part.playcount.declaration.Leads (name ++ (operator.symbol.toList ++ digits)) :=
      Or.inr ⟨_, _, name, operator, digits, rfl, introduced, given, number, rfl⟩
    refine Criteria.fits_none (Or.inl ⟨leads.ne_nil proper, leads.noBlank proper,
      isPlain.noQuote_leads (declaration_mem .playcount) leads⟩) ?_
    intro measure value spells
    exact not_isCriterion_of_playcount
      ⟨written, writtenMember, name, spelled, operator, given, digits, number, rfl⟩
      (isCriterion_of_spells spells)

/-- Every other item is a word of a field with aliases in the second phase. -/
theorem spells_item {own : Item} (valid : own.IsValid) {field : String} {value : FieldValue}
    (kept : (Word.item own).capture? = some (field, value)) :
    ∃ part : Part, part ≠ .username ∧ part.field = field ∧
      part.declaration.Spells own.typed value := by
  rcases own with ⟨measure, name, operator, digits⟩ | name | ⟨part, name, inner, operand⟩ |
    ⟨name, operator, digits⟩
  · cases kept
  · cases kept
    exact ⟨.exact, by decide, rfl, .flag rfl (introduces .exact valid)⟩
  · cases kept
    rcases valid with ⟨which, spelled, nonempty, blank, valueValid⟩
    refine ⟨part, ?_, rfl, ?_⟩
    · rcases which with rfl | rfl | rfl <;> decide
    · rw [← Operand.textOf_text valueValid]
      have kind : part.declaration.kind = .text true := by
        rcases which with rfl | rfl | rfl <;> rfl
      have aliased : part.declaration.isPositional = false := by
        rcases which with rfl | rfl | rfl <;> rfl
      exact .text kind aliased (introduces part spelled) nonempty blank
        (Operand.textValue valueValid)
  · cases kept
    rcases valid with ⟨spelled, given, number⟩
    exact ⟨.playcount, by decide, rfl, .number rfl (introduces .playcount spelled) given number⟩

theorem aliased_of_ne_username {part : Part} (different : part ≠ .username) :
    part.declaration.isPositional = false := by
  cases part with
  | username => exact absurd rfl different
  | exact | query | artist | title | playcount => rfl

theorem fits_kept {own : Item} (valid : own.IsValid) {gap : List Char} {piece : Piece}
    (kept : (Word.item own).kept gap = some piece) : grammar.Fits piece := by
  rcases Option.map_eq_some_iff.mp kept with ⟨⟨field, value⟩, entry, rfl⟩
  rcases spells_item valid entry with ⟨part, different, rfl, spells⟩
  exact ⟨part.declaration, declaration_mem part, aliased_of_ne_username different, rfl, spells⟩

/-- What a word leaves over neither starts nor ends with a blank. -/
theorem trimmed_kept {word : Word} (valid : word.IsValid) {gap : List Char} {piece : Piece}
    (kept : word.kept gap = some piece) : Trimmed piece.text ∧ piece.text ≠ [] := by
  rcases Option.map_eq_some_iff.mp kept with ⟨⟨field, value⟩, entry, rfl⟩
  have ofSpells {part : Part} {text : List Char} {value : FieldValue}
      (spells : part.declaration.Spells text value) : Trimmed text ∧ text ≠ [] :=
    ⟨spells.trimmed (Grammar.isProper (declaration_mem part)),
      spells.ne_nil (Grammar.isProper (declaration_mem part))⟩
  cases word with
  | username value =>
      have positional : Part.username.declaration.Spells value.text (Field.textOf value.text) :=
        .positional rfl rfl (Operand.textValue valid.1)
      exact ofSpells positional
  | item own =>
      rcases spells_item valid entry with ⟨part, _, _, spells⟩
      exact ofSpells spells

end Word

end Search

end SearchCommands
