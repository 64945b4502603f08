import SearchCommands.Proofs.Grammar.Spans

/-!
# What a grammar leaves over

A token starts where a word can start and ends where a word ends, so the leftover has the words that
no capture covers.  If no alias has a quotation mark in it, a token holds a pair of marks or none,
and it starts outside of all pairs, so the leftover has the texts in quotation marks that no capture
covers.
-/

namespace SearchCommands

open Text FieldPattern

namespace Cursor

/-- A place is inside quotation marks if a text in quotation marks starts before it and stops behind
it. -/
theorem insideQuotes_iff {before after : List Char} :
    (Cursor.mk before after).insideQuotes = true ↔
      ∃ pair ∈ quotedTexts (before.reverse ++ after),
        pair.start < byteLength before ∧ byteLength before < pair.stop := by
  constructor
  · intro inside
    rw [insideQuotes, Bool.and_eq_true, beq_iff_eq, List.contains_eq_mem,
      decide_eq_true_iff] at inside
    rcases inside with ⟨odd, closed⟩
    have opened : '"' ∈ before := by
      rw [← List.count_pos_iff]
      exact Nat.pos_of_ne_zero fun none => by simp [none] at odd
    -- the last mark before the place and the first one behind it
    rcases List.eq_append_cons_of_mem opened with ⟨left, ahead, rfl, leftPlain⟩
    rcases List.eq_append_cons_of_mem closed with ⟨right, behind, rfl, rightPlain⟩
    have plain : '"' ∉ left.reverse ++ right := by
      rw [List.mem_append, List.mem_reverse, not_or]
      exact ⟨leftPlain, rightPlain⟩
    have aheadEven : ahead.reverse.count '"' % 2 = 0 := by
      simp only [List.count_append, List.count_cons_self, List.count_eq_zero.mpr leftPlain] at odd
      rw [List.count_reverse]
      omega
    have shape : (left ++ '"' :: ahead).reverse ++ (right ++ '"' :: behind) =
        ahead.reverse ++ (enclosed (left.reverse ++ right) ++ behind) := by
      simp [enclosed]
    have mark := Char.utf8Size_pos '"'
    refine ⟨⟨byteLength ahead, enclosed (left.reverse ++ right)⟩, ?_, ?_, ?_⟩
    · rw [shape, quotedTexts, PartKind.parts, pair_separates (Or.inl aheadEven),
        parts_enclosed plain, byteLength_reverse, Nat.zero_add]
      exact List.mem_append_right _ List.mem_cons_self
    · simp only [byteLength_append, byteLength]
      omega
    · simp only [Placed.stop, enclosed, byteLength_append, byteLength, byteLength_reverse]
      omega
  · rintro ⟨pair, member, start, stop⟩
    by_contra outside
    rw [Bool.not_eq_true, insideQuotes_eq_false_iff] at outside
    change before.count '"' % 2 = 0 ∨ '"' ∉ after at outside
    rw [← List.count_reverse] at outside
    rw [quotedTexts, PartKind.parts, pair_separates outside, byteLength_reverse,
      List.mem_append] at member
    rcases member with member | member
    · rcases PartKind.mem_partsFrom member with ⟨_, _, endsBefore⟩
      rw [byteLength_reverse] at endsBefore
      omega
    · rcases PartKind.mem_partsFrom member with ⟨startsBehind, _, _⟩
      omega

end Cursor

namespace Field

variable {field : Field} {start stop : Cursor} {value : FieldValue}

theorem OccursAt.startsBlank (occurs : field.OccursAt start stop value) :
    start.before = [] ∨ (start.textTo stop).head?.any isBlank = true := by
  rcases occurs.exists_covered with ⟨blanks, word, covered, blank, _, place, _⟩
  apply place.imp_right
  intro introduced
  rcases List.exists_cons_of_ne_nil introduced with ⟨c, chars, rfl⟩
  rw [covered, List.cons_append, List.head?_cons, Option.any_some]
  exact blank c List.mem_cons_self

/-- An occurrence covers no quotation mark, or a text in quotation marks at its end. -/
theorem IsQuoteFree.quotes_covered (quoteFree : field.IsQuoteFree)
    (occurs : field.OccursAt start stop value) :
    '"' ∉ start.textTo stop ∨ ∃ lead inside, '"' ∉ lead ∧ '"' ∉ inside ∧
      start.textTo stop = lead ++ enclosed inside := by
  rcases occurs.exists_covered with ⟨blanks, word, covered, blank, spells, _, _⟩
  have plainBlanks := noQuote_of_allBlank blank
  rw [covered]
  rcases quoteFree.quotes_spells spells with plain | ⟨lead, inside, plainLead, plain, rfl⟩
  · left
    rw [List.mem_append, not_or]
    exact ⟨plainBlanks, plain⟩
  · right
    refine ⟨blanks ++ lead, inside, ?_, plain, by rw [List.append_assoc]⟩
    rw [List.mem_append, not_or]
    exact ⟨plainBlanks, plainLead⟩

theorem IsQuoteFree.even_covered (quoteFree : field.IsQuoteFree)
    (occurs : field.OccursAt start stop value) : (start.textTo stop).count '"' % 2 = 0 := by
  rcases occurs.exists_covered with ⟨blanks, word, covered, blank, spells, _, _⟩
  rw [covered, List.count_append, blank.count_quote, Nat.zero_add]
  exact quoteFree.even_spells spells

/-- No pair of quotation marks reaches over an end of an occurrence outside of all pairs. -/
theorem IsQuoteFree.pair_separates_covered (quoteFree : field.IsQuoteFree)
    (outside : start.insideQuotes = false) (occurs : field.OccursAt start stop value) :
    PartKind.pair.Separates start.before.reverse (start.textTo stop ++ stop.after) ∧
      PartKind.pair.Separates (start.textTo stop) stop.after := by
  refine ⟨?_, pair_separates (Or.inl (quoteFree.even_covered occurs))⟩
  rw [Cursor.insideQuotes_eq_false_iff, (Grammar.reaches_of_occursAt occurs).after_eq] at outside
  apply pair_separates
  rwa [List.count_reverse]

end Field

namespace Grammar

variable {grammar : Grammar} {cursor : Cursor} {tokens : List Token}

namespace Scans

theorem endsWord_uncovered (scans : grammar.Scans cursor tokens) (ends : EndsWord cursor.after) :
    EndsWord (Token.uncovered cursor tokens) := by
  induction tokens generalizing cursor with
  | nil => exact ends
  | cons token rest ih =>
      -- if the token stands right at the cursor, what follows is what is left behind it
      rcases scans.first with ⟨toStart, _, found, more⟩
      rw [toStart.after_eq] at ends
      rw [Token.uncovered]
      cases gap : cursor.textTo token.start with
      | nil =>
          rcases tokenAt?_eq_some found with ⟨_, _, _, _, occurs⟩
          rcases occurs.exists_covered with ⟨_, _, _, _, _, _, wordEnds⟩
          exact ih more wordEnds
      | cons c chars =>
          rw [gap] at ends
          exact ends

/-- No word reaches over an end of a token or over the place where the token was. -/
theorem spares_words (scans : grammar.Scans cursor tokens) :
    Token.Spares PartKind.word cursor tokens := by
  induction tokens generalizing cursor with
  | nil => exact .done cursor
  | cons token rest ih =>
      rcases scans.first with ⟨toStart, _, found, more⟩
      rcases tokenAt?_eq_some found with ⟨_, _, _, _, occurs⟩
      rcases occurs.exists_covered with ⟨_, _, _, _, _, _, wordEnds⟩
      refine .next toStart scans.through ?_ (word_separates wordEnds _)
        (word_separates (more.endsWord_uncovered wordEnds) _) (ih more)
      -- the gap is empty, or a word of it ends at the blank with which the token starts
      rcases occurs.startsBlank with first | startsBlank
      · have gap : cursor.textTo token.start = [] := by
          have before := toStart.before_eq
          rw [first] at before
          simpa using (List.append_eq_nil_iff.mp before.symm).1
        rw [gap]
        exact PartKind.Separates.nil_left _ _
      · rw [scans.through.after_eq]
        exact word_separates (EndsWord.of_startsBlank startsBlank _) _

/-- No pair of quotation marks reaches over an end of a token or over the place where the token
was. -/
theorem spares_pairs (quoteFree : grammar.IsQuoteFree) (outside : cursor.insideQuotes = false)
    (scans : grammar.Scans cursor tokens) : Token.Spares PartKind.pair cursor tokens := by
  induction tokens generalizing cursor with
  | nil => exact .done cursor
  | cons token rest ih =>
      rcases scans.first with ⟨toStart, startOutside, found, more⟩
      rcases tokenAt?_eq_some found with ⟨field, member, _, _, occurs⟩
      have ownEven := (quoteFree field member).even_covered occurs
      -- either the marks of the gap pair up, or no mark follows it
      have gapApart : (cursor.textTo token.start).count '"' % 2 = 0 ∨ '"' ∉ token.start.after := by
        rw [Cursor.insideQuotes_eq_false_iff] at outside startOutside
        refine startOutside.imp_left fun even => ?_
        rcases outside with evenBefore | noneAfter
        · rw [toStart.before_eq, List.count_append, List.count_reverse] at even
          omega
        · rw [toStart.after_eq, List.mem_append, not_or] at noneAfter
          rw [List.count_eq_zero.mpr noneAfter.1]
      -- a token has its marks in pairs, so the rest of the scan starts outside of them again
      have stopOutside : token.stop.insideQuotes = false := by
        rw [Cursor.insideQuotes_eq_false_iff] at startOutside ⊢
        rw [scans.through.before_eq, List.count_append, List.count_reverse]
        refine startOutside.imp (fun even => by omega) fun noneAfter => ?_
        rw [scans.through.after_eq, List.mem_append, not_or] at noneAfter
        exact noneAfter.2
      refine .next toStart scans.through (pair_separates gapApart)
        (pair_separates (Or.inl ownEven)) (pair_separates (gapApart.imp_right ?_))
        (ih stopOutside more)
      intro noneAfter member
      apply noneAfter
      rw [scans.through.after_eq]
      exact List.mem_append_right _ (more.sublist_uncovered.subset member)

/-- No quotation mark is lost if no token covers one. -/
theorem count_uncovered (scans : grammar.Scans cursor tokens)
    (plain : ∀ token ∈ tokens, '"' ∉ token.start.textTo token.stop) :
    (Token.uncovered cursor tokens).count '"' = cursor.after.count '"' := by
  induction tokens generalizing cursor with
  | nil => rfl
  | cons token rest ih =>
      rcases scans.first with ⟨toStart, _, _, more⟩
      have own := plain token List.mem_cons_self
      have later := ih more fun other member => plain other (List.mem_cons_of_mem token member)
      rw [Token.uncovered, toStart.after_eq, scans.through.after_eq, List.count_append,
        List.count_append, List.count_append, List.count_eq_zero.mpr own, later, Nat.zero_add]

end Scans

variable {input : String} {capture : Capture}

/-- A capture starts at the start of the input or with a blank, and it ends before a blank or at the
end of the input. -/
theorem divides_words (member : capture ∈ grammar.captures input) :
    ∃ left own right, capture.Divides input.toList left own right ∧
      (left = [] ∨ own.head?.any isBlank = true) ∧ EndsWord right := by
  rcases exists_token_of_mem_captures member with ⟨token, _, _, ⟨_, _, _, occurs⟩, divides⟩
  rcases occurs.exists_covered with ⟨_, _, _, _, _, _, ends⟩
  refine ⟨_, _, _, divides, ?_, ends⟩
  exact occurs.startsBlank.imp_left fun first => by rw [first, List.reverse_nil]

/-- A capture covers a word as a whole or not at all. -/
theorem covers_or_isApart_word (member : capture ∈ grammar.captures input) {word : Placed}
    (wordMember : word ∈ words input.toList) :
    capture.covers word = true ∨ capture.IsApart word := by
  rcases divides_words member with ⟨left, own, right, divides, place, ends⟩
  refine divides.covers_or_isApart ?_ (word_separates ends own) wordMember
  rcases place with rfl | startsBlank
  · exact PartKind.Separates.nil_left _ _
  · exact word_separates (EndsWord.of_startsBlank startsBlank right) left

/-- The leftover has the words that no capture covers, in their order. -/
theorem texts_words_leftover (grammar : Grammar) (input : String) :
    (words (grammar.leftover input).toList).map Placed.text =
      ((grammar.captures input).uncovered (words input.toList)).map Placed.text := by
  rw [leftover, String.toList_ofList, texts_words_trim]
  exact (grammar.scans_tokens input).spares_words.texts_uncovered.symm

section QuoteFree

variable (quoteFree : grammar.IsQuoteFree)
include quoteFree

/-- A capture covers a text in quotation marks as a whole or not at all.  It covers no mark, or it
covers one such text and no other mark. -/
theorem divides_quotedTexts (member : capture ∈ grammar.captures input) :
    (∀ pair ∈ quotedTexts input.toList, capture.covers pair = true ∨ capture.IsApart pair) ∧
      ∃ left own right, capture.Divides input.toList left own right ∧
        ('"' ∉ own ∨ own.count '"' = 2 ∧
          ∃ pair, (quotedTexts input.toList).filter capture.covers = [pair]) := by
  rcases exists_token_of_mem_captures member with
    ⟨token, _, outside, ⟨field, fieldMember, _, occurs⟩, divides⟩
  have own := quoteFree field fieldMember
  rcases own.pair_separates_covered outside occurs with ⟨ahead, behind⟩
  refine ⟨fun pair pairMember => divides.covers_or_isApart ahead behind pairMember,
    _, _, _, divides, ?_⟩
  refine (own.quotes_covered occurs).imp_right ?_
  rintro ⟨lead, inside, plainLead, plain, covered⟩
  have leadEven : lead.count '"' % 2 = 0 := by rw [List.count_eq_zero.mpr plainLead]
  refine ⟨?_, ⟨capture.start + byteLength lead, enclosed inside⟩, ?_⟩
  · rw [covered, List.count_append, List.count_eq_zero.mpr plainLead, count_enclosed plain]
  · rw [quotedTexts, divides.filter_covers ahead behind, covered, pair_separates (Or.inl leadEven),
      parts_of_noQuote plainLead, List.nil_append, ← List.append_nil (enclosed inside),
      parts_enclosed plain, PartKind.partsFrom_nil, List.append_nil]

/-- The leftover has the texts in quotation marks that no capture covers, in their order. -/
theorem texts_quotedTexts_leftover (input : String) :
    (quotedTexts (grammar.leftover input).toList).map Placed.text =
      ((grammar.captures input).uncovered (quotedTexts input.toList)).map Placed.text := by
  have scans := grammar.scans_tokens input
  have outside : (Cursor.ofText input.toList).insideQuotes = false :=
    Cursor.insideQuotes_eq_false_iff.mpr (Or.inl rfl)
  rw [leftover, String.toList_ofList, texts_quotedTexts_trim]
  exact (scans.spares_pairs quoteFree outside).texts_uncovered.symm

/-- A text in quotation marks stands in a single capture, or it has nothing in common with any. -/
theorem quotedText_whole {pair : Placed} (member : pair ∈ quotedTexts input.toList) :
    (∃ before capture after, grammar.captures input = before ++ capture :: after ∧
        capture.covers pair = true ∧ ∀ other ∈ before ++ after, other.IsApart pair) ∨
      ∀ capture ∈ grammar.captures input, capture.IsApart pair := by
  by_cases covered : ∃ capture ∈ grammar.captures input, capture.covers pair = true
  · rcases covered with ⟨capture, captureMember, covers⟩
    rcases List.append_of_mem captureMember with ⟨before, after, split⟩
    have ordered := grammar.captures_pairwise input
    rw [split] at ordered
    exact Or.inl ⟨before, capture, after, split, covers, Captures.isApart_of_covers ordered covers⟩
  · right
    intro capture captureMember
    rcases (divides_quotedTexts quoteFree captureMember).1 pair member with covers | apart
    · exact absurd ⟨capture, captureMember, covers⟩ covered
    · exact apart

/-- Without text fields, no token covers a quotation mark. -/
theorem IsQuoteFree.count_uncovered
    (noText : ∀ field ∈ grammar.fields, ∀ quotable, field.kind ≠ .text quotable) {cursor : Cursor}
    {tokens : List Token} (scans : grammar.Scans cursor tokens) :
    (Token.uncovered cursor tokens).count '"' = cursor.after.count '"' := by
  apply scans.count_uncovered
  intro token member
  rcases scans.occursAt member with ⟨field, fieldMember, _, occurs, _⟩
  exact (quoteFree field fieldMember).occursAt (noText field fieldMember) occurs

/-- A grammar without text fields leaves all quotation marks over, and all texts between them. -/
theorem quotes_leftover (noText : ∀ field ∈ grammar.fields, ∀ quotable, field.kind ≠ .text quotable)
    (input : String) :
    (quotedTexts (grammar.leftover input).toList).map Placed.text =
        (quotedTexts input.toList).map Placed.text ∧
      (grammar.leftover input).toList.count '"' = input.toList.count '"' := by
  have noPair : ∀ capture ∈ grammar.captures input,
      (quotedTexts input.toList).filter capture.covers = [] := by
    intro capture member
    rcases exists_token_of_mem_captures member with
      ⟨token, _, outside, ⟨field, fieldMember, _, occurs⟩, divides⟩
    have own := quoteFree field fieldMember
    rcases own.pair_separates_covered outside occurs with ⟨ahead, behind⟩
    rw [quotedTexts, divides.filter_covers ahead behind,
      parts_of_noQuote (own.occursAt (noText field fieldMember) occurs)]
  constructor
  · have all : (grammar.captures input).uncovered (quotedTexts input.toList) =
        quotedTexts input.toList := by
      apply List.filter_eq_self.mpr
      intro pair member
      rw [Bool.not_eq_true', Captures.cover, List.any_eq_false]
      intro capture captureMember
      exact List.filter_eq_nil_iff.mp (noPair capture captureMember) pair member
    rw [texts_quotedTexts_leftover quoteFree, all]
  · rw [leftover, String.toList_ofList, count_quote_trim]
    exact IsQuoteFree.count_uncovered quoteFree noText (grammar.scans_tokens input)

end QuoteFree

end Grammar

end SearchCommands
