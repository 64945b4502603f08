import SearchCommands.Proofs.Grammar.Plain
import SearchCommands.Proofs.Grammar.Values

/-!
# Scanning commands piece by piece

A command is laid out as pieces with blanks before them.  Some of the pieces are words of fields
and are taken, the others are passed over and left.  The main statement of this file says that the
scan of a plain grammar takes exactly the former and leaves exactly the latter.
-/

namespace SearchCommands

open Text FieldPattern

/-- A part of a command that stands between blanks: a word without quotation marks, or a text in
quotation marks. -/
def IsPiece (text : List Char) : Prop :=
  (text ≠ [] ∧ NoBlank text ∧ '"' ∉ text) ∨ QuotedText text

/-- A part of a command after the blanks before it.  Where it is a word of a field, the tag is the
name of the field and the value of the word. -/
structure Piece where
  gap : List Char
  text : List Char
  tag : Option (String × FieldValue)

/-- The text of the pieces. -/
def laid (pieces : List Piece) : List Char :=
  pieces.flatMap fun piece => piece.gap ++ piece.text

/-- All pieces stand after blanks; at the start of the input there need not be any. -/
def Separated : List Char → List Piece → Prop
  | _, [] => True
  | before, piece :: rest =>
      AllBlank piece.gap ∧ (before = [] ∨ piece.gap ≠ []) ∧
        Separated (piece.text.reverse ++ (piece.gap.reverse ++ before)) rest

theorem laid_cons (piece : Piece) (rest : List Piece) (tail : List Char) :
    laid (piece :: rest) ++ tail = piece.gap ++ (piece.text ++ (laid rest ++ tail)) := by
  simp [laid]

/-- A word can end before separated pieces. -/
theorem Separated.endsWord {before tail : List Char} (nonempty : before ≠ [])
    {pieces : List Piece} (separated : Separated before pieces) (blank : AllBlank tail) :
    EndsWord (laid pieces ++ tail) := by
  cases pieces with
  | nil => exact EndsWord.of_allBlank blank
  | cons piece rest =>
      rcases separated with ⟨gapBlank, place, _⟩
      rcases List.exists_cons_of_ne_nil (place.resolve_left nonempty) with ⟨c, more, shape⟩
      rw [laid_cons, shape]
      intro d member
      rw [List.cons_append, List.head?_cons, Option.mem_some_iff] at member
      exact gapBlank d (by simp [shape, member])

theorem IsPiece.ne_nil {text : List Char} (piece : IsPiece text) : text ≠ [] := by
  rcases piece with ⟨nonempty, _⟩ | ⟨_, _, rfl⟩
  · exact nonempty
  · simp [enclosed]

theorem IsPiece.even {text : List Char} (piece : IsPiece text) : text.count '"' % 2 = 0 := by
  rcases piece with ⟨_, _, plain⟩ | ⟨inside, plain, rfl⟩
  · rw [List.count_eq_zero.mpr plain]
  · rw [count_enclosed plain]

namespace Grammar

variable {grammar : Grammar}

/-- Where no blank separates a character from the text before it, no field occurs. -/
theorem tokenAt?_of_inked {before after : List Char} {c : Char} (nonempty : before ≠ [])
    (inked : isBlank c = false) : grammar.tokenAt? ⟨before, c :: after⟩ = none := by
  rw [tokenAt?_eq_none_iff]
  rintro field member stop value ⟨blanks, word, rest, split, blank, _, _, place, _⟩
  rcases place with start | ⟨_, some⟩
  · exact nonempty start
  · rcases List.exists_cons_of_ne_nil some with ⟨d, more, rfl⟩
    simp only [List.cons_append, List.cons.injEq] at split
    have isBlank := blank d (by simp)
    rw [← split.1, inked] at isBlank
    cases isBlank

/-- Blanks alone hold no field. -/
theorem tokenAt?_of_allBlank {before after : List Char} (blank : AllBlank after) :
    grammar.tokenAt? ⟨before, after⟩ = none := by
  rw [tokenAt?_eq_none_iff]
  rintro field member stop value ⟨blanks, word, rest, split, _, spells, _, _, _⟩
  simp only at split
  rw [split] at blank
  have wordBlank := blank.of_append_right.of_append_left
  exact spells.ne_nil (isProper member)
    (wordBlank.eq_nil (spells.startsInked (isProper member)))

namespace Scans

/-- Passing over a text of which no place holds a token outside quotation marks. -/
theorem pass_text {before text rest : List Char} {tokens : List Token}
    (nothing : ∀ left right, text = left ++ right → right ≠ [] →
      grammar.tokenAt? ⟨left.reverse ++ before, right ++ rest⟩ = none ∨
        (Cursor.mk (left.reverse ++ before) (right ++ rest)).insideQuotes = true)
    (scans : grammar.Scans ⟨text.reverse ++ before, rest⟩ tokens) :
    grammar.Scans ⟨before, text ++ rest⟩ tokens := by
  induction text generalizing before with
  | nil => exact scans
  | cons c text ih =>
      refine .pass (nothing [] (c :: text) rfl (by simp)) (ih ?_ ?_)
      · intro left right split nonempty
        have here := nothing (c :: left) right (by simp [split]) nonempty
        simpa using here
      · simpa using scans

theorem pass_blanks {before blanks : List Char} (blank : AllBlank blanks) :
    grammar.Scans ⟨before, blanks⟩ [] := by
  have passed : grammar.Scans ⟨before, blanks ++ []⟩ [] := by
    refine pass_text ?_ (.done _)
    intro left right split _
    left
    apply tokenAt?_of_allBlank
    rw [split] at blank
    simpa using blank.of_append_right
  simpa using passed

/-- Passing over a piece before which and at whose start no field occurs. -/
theorem pass_piece {before gap text rest : List Char} {tokens : List Token}
    (even : before.count '"' % 2 = 0) (blank : AllBlank gap) (piece : IsPiece text)
    (nothing : ∀ left right, gap = left ++ right →
      grammar.tokenAt? ⟨left.reverse ++ before, right ++ (text ++ rest)⟩ = none)
    (scans : grammar.Scans ⟨text.reverse ++ (gap.reverse ++ before), rest⟩ tokens) :
    grammar.Scans ⟨before, gap ++ (text ++ rest)⟩ tokens := by
  have gapEven : (gap.reverse ++ before).count '"' % 2 = 0 := by
    rw [List.count_append, List.count_reverse, blank.count_quote, Nat.zero_add, even]
  refine pass_text (fun left right split _ => Or.inl (nothing left right split)) ?_
  refine pass_text ?_ scans
  intro left right split nonempty
  cases left with
  | nil =>
      left
      rw [List.nil_append] at split
      have start := nothing gap [] (by simp)
      simpa [split] using start
  | cons c left =>
      rcases piece with ⟨_, inked, _⟩ | ⟨inside, plain, rfl⟩
      · left
        rcases List.exists_cons_of_ne_nil nonempty with ⟨d, more, rfl⟩
        apply tokenAt?_of_inked (by simp)
        exact inked d (by simp [split])
      · right
        -- the closing mark is still ahead, and the opening one has been read
        rcases List.eq_nil_or_concat right with rfl | ⟨more, d, rfl⟩
        · exact absurd rfl nonempty
        · rw [List.concat_eq_append] at split ⊢
          rw [enclosed, List.cons_append, List.cons.injEq, ← List.append_assoc] at split
          rcases List.append_inj' split.2 rfl with ⟨body, last⟩
          have leftPlain : '"' ∉ left := fun member => plain (body ▸ List.mem_append_left _ member)
          apply Cursor.insideQuotes_of_odd
          · rw [List.count_append, List.count_reverse, ← split.1, List.count_cons_self,
              List.count_eq_zero.mpr leftPlain]
            omega
          · rw [← last]
            simp

/-- The first token starts at the cursor or later. -/
theorem start_le {cursor : Cursor} {token : Token} {tokens : List Token}
    (scans : grammar.Scans cursor (token :: tokens)) :
    token.start.after.length ≤ cursor.after.length := by
  generalize shape : token :: tokens = all at scans
  induction scans with
  | done => cases shape
  | pass _ _ ih => exact Nat.le_succ_of_le (ih shape)
  | take found _ _ =>
      cases shape
      rcases tokenAt?_eq_some found with ⟨_, _, _, start, _⟩
      rw [start]

/-- What is passed over is not covered. -/
theorem uncovered_append {before text rest : List Char} {tokens : List Token}
    (scans : grammar.Scans ⟨text.reverse ++ before, rest⟩ tokens) :
    Token.uncovered ⟨before, text ++ rest⟩ tokens =
      text ++ Token.uncovered ⟨text.reverse ++ before, rest⟩ tokens := by
  cases tokens with
  | nil => rfl
  | cons token tokens =>
      have later := scans.start_le
      simp only at later
      simp only [Token.uncovered, Cursor.textTo]
      rw [← List.append_assoc, List.length_append,
        Nat.add_sub_assoc later, List.take_length_add_append]

end Scans

theorem textTo_self (cursor : Cursor) : cursor.textTo cursor = [] := by
  simp [Cursor.textTo]

/-- The piece is a word of a field with aliases, or no field occurs where it stands. -/
def Fits (grammar : Grammar) (piece : Piece) : Prop :=
  match piece.tag with
  | some (name, value) => ∃ field ∈ grammar.fields, field.isPositional = false ∧
      field.name = name ∧ field.Spells piece.text value
  | none => IsPiece piece.text ∧ ∀ field ∈ grammar.fields, ∀ before blanks rest stop value,
      AllBlank blanks → EndsWord rest →
      ¬ field.OccursAt ⟨before, blanks ++ (piece.text ++ rest)⟩ stop value

section Piece

variable {before gap text rest : List Char} {tokens : List Token} (even : before.count '"' % 2 = 0)
  (blank : AllBlank gap) (ends : EndsWord rest)
  (scans : grammar.Scans ⟨text.reverse ++ (gap.reverse ++ before), rest⟩ tokens)

include even blank ends scans

/-- A piece that is no word of a field is left with the blanks before it. -/
theorem Scans.leave_piece (piece : IsPiece text)
    (nowhere : ∀ field ∈ grammar.fields, ∀ before blanks rest stop value, AllBlank blanks →
      EndsWord rest → ¬ field.OccursAt ⟨before, blanks ++ (text ++ rest)⟩ stop value) :
    grammar.Scans ⟨before, gap ++ (text ++ rest)⟩ tokens ∧
      Token.uncovered ⟨before, gap ++ (text ++ rest)⟩ tokens =
        gap ++ (text ++ Token.uncovered ⟨text.reverse ++ (gap.reverse ++ before), rest⟩ tokens) := by
  constructor
  · refine scans.pass_piece even blank piece ?_
    intro left right split
    rw [tokenAt?_eq_none_iff]
    intro field member stop value
    rw [split] at blank
    exact nowhere field member _ right _ stop value blank.of_append_right ends
  · have behind : text.reverse ++ (gap.reverse ++ before) = (gap ++ text).reverse ++ before := by
      rw [List.reverse_append, List.append_assoc]
    rw [behind] at scans ⊢
    rw [← List.append_assoc, scans.uncovered_append, List.append_assoc]

/-- A piece that is a word of a field with aliases is taken with the blanks before it. -/
theorem IsPlain.take_piece (plain : grammar.IsPlain) {field : Field}
    (member : field ∈ grammar.fields) (aliased : field.isPositional = false) {value : FieldValue}
    (spells : field.Spells text value) (place : before = [] ∨ gap ≠ []) :
    ∃ token : Token, token.entry = (field.name, value) ∧
      grammar.Scans ⟨before, gap ++ (text ++ rest)⟩ (token :: tokens) ∧
      Token.uncovered ⟨before, gap ++ (text ++ rest)⟩ (token :: tokens) =
        Token.uncovered ⟨text.reverse ++ (gap.reverse ++ before), rest⟩ tokens := by
  have occurs : field.OccursAt ⟨before, gap ++ (text ++ rest)⟩
      ⟨text.reverse ++ (gap.reverse ++ before), rest⟩ value :=
    ⟨gap, text, rest, rfl, blank, spells, ends, place.imp_right fun some => ⟨aliased, some⟩, rfl⟩
  have found := plain.tokenAt?_of_aliased member aliased occurs
  refine ⟨_, rfl, .take found (Cursor.insideQuotes_of_even even _) scans, ?_⟩
  rw [Token.uncovered, textTo_self, List.nil_append]

end Piece

/-- A scan takes the pieces that are words of fields and leaves the others. -/
theorem IsPlain.exists_scans (plain : grammar.IsPlain) {before tail : List Char}
    (even : before.count '"' % 2 = 0) {pieces : List Piece} (separated : Separated before pieces)
    (blank : AllBlank tail) (fits : ∀ piece ∈ pieces, grammar.Fits piece) :
    ∃ tokens, grammar.Scans ⟨before, laid pieces ++ tail⟩ tokens ∧
      tokens.map Token.entry = pieces.filterMap Piece.tag ∧
      Token.uncovered ⟨before, laid pieces ++ tail⟩ tokens =
        laid (pieces.filter fun piece => piece.tag.isNone) ++ tail := by
  induction pieces generalizing before with
  | nil => exact ⟨[], Scans.pass_blanks blank, rfl, rfl⟩
  | cons piece rest ih =>
      rcases piece with ⟨gap, text, tag⟩
      rcases separated with ⟨gapBlank, place, restSeparated⟩
      have fit := fits _ List.mem_cons_self
      have restFits : ∀ piece ∈ rest, grammar.Fits piece :=
        fun piece member => fits piece (List.mem_cons_of_mem _ member)
      have evenBehind (evenText : text.count '"' % 2 = 0) :
          (text.reverse ++ (gap.reverse ++ before)).count '"' % 2 = 0 := by
        rw [List.count_append, List.count_append, List.count_reverse, List.count_reverse,
          gapBlank.count_quote]
        omega
      rw [laid_cons]
      cases tag with
      | none =>
          rcases fit with ⟨isPiece, nowhere⟩
          have ends := restSeparated.endsWord (by simp [isPiece.ne_nil]) blank
          rcases ih (evenBehind isPiece.even) restSeparated restFits with
            ⟨tokens, scans, entries, uncovered⟩
          rcases scans.leave_piece even gapBlank ends isPiece nowhere with ⟨passed, left⟩
          refine ⟨tokens, passed, entries, ?_⟩
          rw [left, uncovered]
          simp [laid]
      | some entry =>
          rcases entry with ⟨name, value⟩
          rcases fit with ⟨field, member, aliased, rfl, spells⟩
          have nonempty := spells.ne_nil (isProper member)
          have ends := restSeparated.endsWord (by simp [nonempty]) blank
          rcases ih (evenBehind ((plain.quoteFree member).even_spells spells)) restSeparated
            restFits with ⟨tokens, scans, entries, uncovered⟩
          rcases plain.take_piece even gapBlank ends scans member aliased spells place with
            ⟨token, own, taken, left⟩
          refine ⟨token :: tokens, taken, ?_, ?_⟩
          · rw [List.map_cons, entries, own]
            rfl
          · rw [left, uncovered]
            rfl

/-- What the entries of the tokens say about the values of a field. -/
theorem valuesOf_of_scans {input : String} {tokens : List Token}
    (scans : grammar.Scans (Cursor.ofText input.toList) tokens) {entries : List (String × FieldValue)}
    (same : tokens.map Token.entry = entries) (field : String) :
    (grammar.captures input).valuesOf field =
      entries.filterMap fun entry => if entry.1 = field then some entry.2 else none := by
  rw [← same, captures, tokens_eq_iff.mpr scans, Captures.valuesOf]
  clear scans same
  induction tokens with
  | nil => rfl
  | cons token rest ih =>
      simp only [List.map_cons, List.filter_cons, List.filterMap_cons, Token.capture, Token.entry]
      by_cases own : token.field = field
      · simp only [own, beq_self_eq_true, if_true, List.map_cons]
        rw [ih]
      · simp only [beq_eq_false_iff_ne.mpr own, if_neg own, Bool.false_eq_true, if_false]
        exact ih

theorem leftover_of_scans {input : String} {tokens : List Token}
    (scans : grammar.Scans (Cursor.ofText input.toList) tokens) :
    grammar.leftover input =
      String.ofList (trim (Token.uncovered (Cursor.ofText input.toList) tokens)) := by
  rw [leftover, tokens_eq_iff.mpr scans]

theorem trimmed_leftover (grammar : Grammar) (input : String) :
    Trimmed (grammar.leftover input).toList := by
  rw [leftover, String.toList_ofList]
  exact trimmed_trim _

end Grammar

end SearchCommands
