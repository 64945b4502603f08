import SearchCommands.Proofs.Grammar.Leftover
import SearchCommands.Proofs.Grammar.Preference
import SearchCommands.Proofs.Text.Places

/-!
# Captured words

A capture of a number covers one word of the input, and the word stands outside of quotation marks.
The token of the capture stops right behind this word (`Grammar.exists_token_of_takes`).
-/

namespace SearchCommands

open Text

/-- A capture of the field covers the word. -/
def Captures.Takes (captures : Captures) (field : String) (word : Placed) : Prop :=
  ∃ capture ∈ captures, capture.field = field ∧ capture.covers word = true

instance decidableTakes (captures : Captures) (field : String) (word : Placed) :
    Decidable (captures.Takes field word) :=
  inferInstanceAs (Decidable (∃ capture ∈ captures, _))

namespace Grammar

variable {grammar : Grammar}

/-- Two tokens of a scan do not stop at one place. -/
theorem Scans.eq_of_stop {cursor : Cursor} {tokens : List Token}
    (scans : grammar.Scans cursor tokens) {token other : Token} (member : token ∈ tokens)
    (otherMember : other ∈ tokens) (same : token.stop.after = other.stop.after) : token = other := by
  induction tokens generalizing cursor with
  | nil => cases member
  | cons head tokens ih =>
      rcases scans.first with ⟨_, _, _, behind⟩
      -- a later token stops behind the place where the first one stops
      have later {token : Token} (member : token ∈ tokens) :
          token.stop.after.length < head.stop.after.length := by
        rcases behind.occursAt member with ⟨field, fieldMember, _, occurs, _⟩
        rcases behind.reaches member with ⟨toStart, through⟩
        have covered := List.length_pos_of_ne_nil (occurs.textTo_ne_nil (isProper fieldMember))
        have split := congrArg List.length through.after_eq
        rw [List.length_append] at split
        have shorter := toStart.length_le
        omega
      rcases List.mem_cons.mp member with first | inTail
      · rcases List.mem_cons.mp otherMember with otherFirst | otherInTail
        · rw [first, otherFirst]
        · have shorter := later otherInTail
          rw [← first, same] at shorter
          omega
      · rcases List.mem_cons.mp otherMember with otherFirst | otherInTail
        · have shorter := later inTail
          rw [← otherFirst, same] at shorter
          omega
        · exact ih behind inTail otherInTail

/-- A capture of a number covers one word, which stands behind its blanks. -/
theorem exists_only_word {field : Field} (member : field ∈ grammar.fields)
    (noText : ∀ quotable, field.kind ≠ .text quotable) {input : String} {token : Token}
    (tokenMember : token ∈ grammar.tokens input) (name : token.field = field.name) :
    ∃ blanks own, token.start.textTo token.stop = blanks ++ own ∧ AllBlank blanks ∧
      field.Spells own token.value ∧ token.start.insideQuotes = false ∧
      (words input.toList).filter token.capture.covers =
        [⟨token.capture.start + byteLength blanks, own⟩] := by
  have divides := divides_of_mem_tokens tokenMember
  rcases (grammar.scans_tokens input).occursAt tokenMember with
    ⟨other, otherMember, otherName, occurs, outside⟩
  rcases field_eq_of_name otherMember member (otherName.symm.trans name) with rfl
  rcases occurs.exists_covered with ⟨blanks, own, covered, blank, spells, place, ends⟩
  refine ⟨blanks, own, covered, blank, spells, outside, ?_⟩
  have inked := spells.noBlank (isProper member) noText
  have behind : PartKind.word.Separates (token.start.textTo token.stop) token.stop.after :=
    word_separates ends _
  have ahead : PartKind.word.Separates token.start.before.reverse
      (token.start.textTo token.stop ++ token.stop.after) := by
    rcases occurs.startsBlank with start | startsBlank
    · rw [start]
      exact .nil_left _ _
    · exact word_separates (.of_startsBlank startsBlank _) _
  have ownParts (offset : Nat) : PartKind.word.partsFrom offset (own ++ []) = [⟨offset, own⟩] := by
    rw [PartKind.partsFrom_take (leadingWord_of_endsWord inked .nil)
      (spells.ne_nil (isProper member)), PartKind.partsFrom_nil]
  rw [words, divides.filter_covers ahead behind, covered, PartKind.partsFrom_blanks blank,
    ← List.append_nil own, ownParts, List.append_nil]

/-- A number that is captured takes a word. -/
theorem exists_word_of_captured {field : Field} (member : field ∈ grammar.fields)
    (noText : ∀ quotable, field.kind ≠ .text quotable) {input : String} {capture : Capture}
    (captured : capture ∈ grammar.captures input) (name : capture.field = field.name) :
    ∃ word ∈ words input.toList, capture.covers word = true ∧
      field.Spells word.text capture.value := by
  rcases List.mem_map.mp captured with ⟨token, tokenMember, rfl⟩
  rcases exists_only_word member noText tokenMember name with
    ⟨blanks, own, _, _, spells, _, only⟩
  have listed : (⟨token.capture.start + byteLength blanks, own⟩ : Placed) ∈
      (words input.toList).filter token.capture.covers := only ▸ List.mem_singleton_self _
  rcases List.mem_filter.mp listed with ⟨isWord, covers⟩
  exact ⟨_, isWord, covers, spells⟩

/-- A word that a number captures is one of its words, and its token stops right behind it. -/
theorem exists_token_of_takes {field : Field} (member : field ∈ grammar.fields)
    (noText : ∀ quotable, field.kind ≠ .text quotable) {input : String} {left word right : List Char}
    (text : input.toList = left ++ (word ++ right))
    (listed : ⟨byteLength left, word⟩ ∈ words (left ++ (word ++ right)))
    (takes : (grammar.captures input).Takes field.name ⟨byteLength left, word⟩) :
    ∃ token ∈ grammar.tokens input, token.field = field.name ∧
      token.stop = ⟨word.reverse ++ left.reverse, right⟩ ∧ field.Spells word token.value ∧
      (left.count '"' % 2 = 0 ∨ '"' ∉ right) := by
  rcases takes with ⟨capture, captured, name, covers⟩
  rcases List.mem_map.mp captured with ⟨token, tokenMember, rfl⟩
  rcases exists_only_word member noText tokenMember name with
    ⟨blanks, own, covered, blank, spells, outside, only⟩
  have divides := divides_of_mem_tokens tokenMember
  have inOnly : (⟨byteLength left, word⟩ : Placed) ∈
      (words input.toList).filter token.capture.covers := by
    rw [List.mem_filter, text]
    exact ⟨listed, covers⟩
  rw [only, List.mem_singleton, Placed.mk.injEq] at inOnly
  rcases inOnly with ⟨place, rfl⟩
  have split := divides.text_eq
  rw [text, covered] at split
  have lengths : byteLength left = byteLength (token.start.before.reverse ++ blanks) := by
    rw [place, divides.start_eq, byteLength_append]
  have aligned : left ++ (word ++ right) =
      token.start.before.reverse ++ blanks ++ (word ++ token.stop.after) := by simp [split]
  rcases eq_of_byteLength_eq aligned lengths with ⟨leftEq, behind⟩
  have rightEq := List.append_cancel_left behind
  have through := ((grammar.scans_tokens input).reaches tokenMember).2
  refine ⟨token, tokenMember, name, ?_, spells, ?_⟩
  · rw [Cursor.mk.injEq, through.before_eq, covered, leftEq]
    exact ⟨by simp, rightEq.symm⟩
  · rw [Cursor.insideQuotes_eq_false_iff, through.after_eq] at outside
    rw [leftEq, List.count_append, List.count_reverse, blank.count_quote]
    exact outside.imp_right fun none member => none (List.mem_append_right _ (rightEq ▸ member))

/-- A number that is captured twice takes two words, one behind the other. -/
theorem exists_words_of_twice {field : Field} (member : field ∈ grammar.fields)
    (noText : ∀ quotable, field.kind ≠ .text quotable) {input : String}
    (twice : (grammar.captures input).countOf field.name = 2) :
    ∃ first ∈ words input.toList, ∃ second ∈ words input.toList, first.stop ≤ second.start ∧
      ((grammar.captures input).Takes field.name first ∧ ∃ value, field.Spells first.text value) ∧
      (grammar.captures input).Takes field.name second ∧
      ∃ value, field.Spells second.text value := by
  have ordered := (grammar.captures_pairwise input).sublist
    (List.filter_sublist :
      List.Sublist (List.filter (fun capture => capture.field == field.name) _) _)
  rw [Captures.countOf, List.countP_eq_length_filter, List.length_eq_two] at twice
  rcases twice with ⟨first, second, own⟩
  rw [own] at ordered
  have order := (List.pairwise_cons.mp ordered).1 second List.mem_cons_self
  have listed : ∀ capture ∈ [first, second],
      capture ∈ grammar.captures input ∧ capture.field = field.name := by
    intro capture inOwn
    rw [← own] at inOwn
    exact (List.mem_filter.mp inOwn).imp_right beq_iff_eq.mp
  rcases listed first List.mem_cons_self with ⟨firstCaptured, firstName⟩
  rcases listed second (by simp) with ⟨secondCaptured, secondName⟩
  rcases exists_word_of_captured member noText firstCaptured firstName with
    ⟨word, wordMember, covers, spells⟩
  rcases exists_word_of_captured member noText secondCaptured secondName with
    ⟨later, laterMember, coversLater, spellsLater⟩
  refine ⟨word, wordMember, later, laterMember, ?_,
    ⟨⟨first, firstCaptured, firstName, covers⟩, _, spells⟩,
    ⟨second, secondCaptured, secondName, coversLater⟩, _, spellsLater⟩
  exact ((Capture.covers_iff.mp covers).2.trans order).trans (Capture.covers_iff.mp coversLater).1

end Grammar

end SearchCommands
