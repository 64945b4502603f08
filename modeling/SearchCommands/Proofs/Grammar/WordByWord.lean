import SearchCommands.Proofs.Grammar.Spacing
import SearchCommands.Proofs.Text.Segments

/-!
# Reading word by word

Flags and numbers are single words.  What a grammar of such fields finds in a word does not depend
on what stands around the word, as long as no quotation marks are open
(`Grammar.IsWordwise.tokenAt?_of_segment`).  So a scan reads the segments of a text one by one, and
what it leaves are the segments in which it finds nothing (`Grammar.IsWordwise.exists_scans`).
-/

namespace SearchCommands

open Text

namespace Field

variable {field : Field}

theorem IsProper.isPositional_eq_false (proper : field.IsProper)
    (noText : ∀ quotable, field.kind ≠ .text quotable) : field.isPositional = false := by
  rw [← Bool.not_eq_true]
  intro positional
  rcases proper.positionalText positional with ⟨quotable, kind⟩
  exact noText quotable kind

section Word

variable {before gap word rest : List Char} (proper : field.IsProper)
  (noText : ∀ quotable, field.kind ≠ .text quotable) (place : before = [] ∨ gap ≠ [])
  (blank : AllBlank gap) (some : word ≠ []) (inked : NoBlank word) (ends : EndsWord rest)

include proper noText place blank some inked ends

/-- Before a word occurs what the word spells, and nothing else. -/
theorem occursAt_word_iff {stop : Cursor} {value : FieldValue} :
    field.OccursAt ⟨before, gap ++ (word ++ rest)⟩ stop value ↔
      field.Spells word value ∧ stop = ⟨word.reverse ++ (gap.reverse ++ before), rest⟩ := by
  constructor
  · intro occurs
    rcases occurs.after_blanks proper blank (inked.startsInked.append some) with
      ⟨word', rest', same, spells, ends', _, stopEq⟩
    rcases Text.word_unique inked (spells.noBlank proper noText) ends ends' same with ⟨rfl, rfl⟩
    exact ⟨spells, stopEq⟩
  · rintro ⟨spells, rfl⟩
    refine ⟨gap, word, rest, rfl, blank, spells, ends, ?_, rfl⟩
    exact place.imp_right fun gapSome => ⟨proper.isPositional_eq_false noText, gapSome⟩

/-- A field has the token before a word that it has where the word stands alone. -/
theorem tokenAt?_of_word : field.tokenAt? ⟨before, gap ++ (word ++ rest)⟩ =
    (field.tokenAt? (Cursor.ofText word)).map fun token =>
      ⟨token.field, ⟨before, gap ++ (word ++ rest)⟩,
        ⟨word.reverse ++ (gap.reverse ++ before), rest⟩, token.value⟩ := by
  have alone : Cursor.ofText word = ⟨[], [] ++ (word ++ [])⟩ := by simp [Cursor.ofText]
  have here {stop : Cursor} {value : FieldValue} :=
    @occursAt_word_iff field before gap word rest proper noText place blank some inked ends stop value
  have there {stop : Cursor} {value : FieldValue} :=
    @occursAt_word_iff field [] [] word [] proper noText (Or.inl rfl) .nil some inked .nil stop value
  rw [alone]
  cases found : field.tokenAt? ⟨[], [] ++ (word ++ [])⟩ with
  | none =>
      rw [tokenAt?_eq_none_iff proper] at found
      rw [Option.map_none, tokenAt?_eq_none_iff proper]
      intro stop value occurs
      exact found _ value (there.mpr ⟨(here.mp occurs).1, rfl⟩)
  | some token =>
      rcases tokenAt?_eq_some proper found with ⟨name, _, occurs⟩
      have occursHere := here.mpr ⟨(there.mp occurs).1, rfl⟩
      rw [Option.map_some]
      cases found' : field.tokenAt? ⟨before, gap ++ (word ++ rest)⟩ with
      | none => exact absurd occursHere ((tokenAt?_eq_none_iff proper).mp found' _ _)
      | some token' =>
          rcases tokenAt?_eq_some proper found' with ⟨name', start', occurs'⟩
          have stop := (here.mp occurs').2
          have value : token'.value = token.value := by
            by_cases noNumber : ∀ signed whole, field.kind ≠ .number signed whole
            · rw [occursHere.tokenAt?_eq proper noNumber, Option.some.injEq] at found'
              rw [← found']
            · simp only [ne_eq, not_forall, Decidable.not_not] at noNumber
              rcases noNumber with ⟨signed, whole, kind⟩
              exact tokenAt?_value_of_number proper kind place (Or.inl rfl) blank .nil
                inked.startsInked some ends .nil found' found
          rcases token' with ⟨_, _, _, _⟩
          simp only at name' start' stop value
          rw [name', start', stop, value, name]

end Word

end Field

namespace Grammar

variable {grammar : Grammar}

/-- The fields of the grammar are flags and numbers, and no alias has a quotation mark in it. -/
structure IsWordwise (grammar : Grammar) : Prop where
  noText : ∀ field ∈ grammar.fields, ∀ quotable, field.kind ≠ .text quotable
  quoteFree : grammar.IsQuoteFree

/-- A flag alone is read word by word. -/
theorem IsWordwise.of_flag {name : String} {aliases : List String} {rules : List Rule}
    (lone : grammar.fields = [⟨name, .flag, aliases, rules⟩])
    (plain : ∀ other ∈ aliases, '"' ∉ other.toList) : grammar.IsWordwise where
  noText := by simp [lone]
  quoteFree := by simpa [IsQuoteFree, Field.IsQuoteFree, lone] using plain

/-- What the grammar finds in a word that stands alone. -/
def entryOf? (grammar : Grammar) (word : List Char) : Option (String × FieldValue) :=
  (grammar.tokenAt? (Cursor.ofText word)).map Token.entry

/-- What the grammar finds in a word of a text, which is nothing where quotation marks are open. -/
def entryIn? (grammar : Grammar) (segment : Segment) : Option (String × FieldValue) :=
  if segment.quoted then none else grammar.entryOf? segment.word

/-- The captures in some segments that stand behind the given number of bytes. -/
def capturesIn (grammar : Grammar) (offset : Nat) : List Segment → Captures
  | [] => []
  | segment :: rest =>
      let stop := offset + byteLength segment.text
      ((grammar.entryIn? segment).map fun entry => ⟨entry.1, offset, stop, entry.2⟩).toList ++
        grammar.capturesIn stop rest

/-- The segments in which the grammar finds nothing. -/
def unread (grammar : Grammar) (segments : List Segment) : List Segment :=
  segments.filter fun segment => (grammar.entryIn? segment).isNone

/-- A scan passes over a word before whose blanks nothing is found, or marks are open. -/
theorem Scans.pass_word {before gap word rest : List Char} {tokens : List Token}
    (blank : AllBlank gap) (some : word ≠ []) (inked : NoBlank word)
    (nothing : grammar.tokenAt? ⟨before, gap ++ (word ++ rest)⟩ = none ∨
      (Cursor.mk before (gap ++ (word ++ rest))).insideQuotes = true)
    (scans : grammar.Scans ⟨word.reverse ++ (gap.reverse ++ before), rest⟩ tokens) :
    grammar.Scans ⟨before, gap ++ (word ++ rest)⟩ tokens := by
  have inGap (left right : List Char) (split : gap = left ++ right) :
      grammar.tokenAt? ⟨left.reverse ++ before, right ++ (word ++ rest)⟩ = none ∨
        (Cursor.mk (left.reverse ++ before) (right ++ (word ++ rest))).insideQuotes = true := by
    subst split
    refine nothing.imp (tokenAt?_inside_gap blank (inked.startsInked.append some)) fun inside => ?_
    have plain : '"' ∉ left.reverse := by
      rw [List.mem_reverse]
      exact List.count_eq_zero.mp blank.of_append_left.count_quote
    rw [Cursor.insideQuotes_past plain, List.reverse_reverse, ← List.append_assoc]
    exact inside
  refine pass_text (fun left right split _ => inGap left right split) (pass_text ?_ scans)
  intro left right split nonempty
  cases left with
  | nil =>
      rw [List.nil_append] at split
      simpa [split] using inGap gap [] (by simp)
  | cons c left =>
      rcases List.exists_cons_of_ne_nil nonempty with ⟨d, more, rfl⟩
      exact Or.inl (tokenAt?_of_inked (by simp) (inked d (by simp [split])))

namespace IsWordwise

variable (wordwise : grammar.IsWordwise)

include wordwise

/-- The token before a word is a matter of the word alone. -/
theorem tokenAt?_of_word {before gap word rest : List Char} (place : before = [] ∨ gap ≠ [])
    (blank : AllBlank gap) (some : word ≠ []) (inked : NoBlank word) (ends : EndsWord rest) :
    grammar.tokenAt? ⟨before, gap ++ (word ++ rest)⟩ =
      (grammar.entryOf? word).map fun entry =>
        ⟨entry.1, ⟨before, gap ++ (word ++ rest)⟩,
          ⟨word.reverse ++ (gap.reverse ++ before), rest⟩, entry.2⟩ := by
  rw [entryOf?, tokenAt?_eq_findSome?, tokenAt?_eq_findSome?, Option.map_map,
    ← List.head?_filterMap, ← List.head?_filterMap, ← List.head?_map, List.map_filterMap]
  apply congrArg List.head?
  apply List.filterMap_congr
  intro field tried
  have member := mem_tried_iff.mp tried
  exact field.tokenAt?_of_word (isProper member) (wordwise.noText field member) place blank some
    inked ends

/-- What the grammar finds in a word is a flag or a number that fills the word. -/
theorem spells_of_entryOf? {word : List Char} (some : word ≠ []) (inked : NoBlank word)
    {entry : String × FieldValue} (found : grammar.entryOf? word = .some entry) :
    ∃ field ∈ grammar.fields, field.Spells word entry.2 := by
  rcases Option.map_eq_some_iff.mp found with ⟨token, atStart, rfl⟩
  rcases tokenAt?_eq_some atStart with ⟨field, member, _, _, occurs⟩
  have here : field.OccursAt ⟨[], [] ++ (word ++ [])⟩ token.stop token.value := by
    simpa [Cursor.ofText] using occurs
  exact ⟨field, member, ((Field.occursAt_word_iff (isProper member) (wordwise.noText field member)
    (Or.inl rfl) .nil some inked .nil).mp here).1⟩

/-- A word in which the grammar finds something has no quotation mark. -/
theorem noQuote_of_entryOf? {word : List Char} (some : word ≠ []) (inked : NoBlank word)
    {entry : String × FieldValue} (found : grammar.entryOf? word = .some entry) : '"' ∉ word := by
  rcases wordwise.spells_of_entryOf? some inked found with ⟨field, member, spells⟩
  exact (wordwise.quoteFree field member).noQuote_spells (wordwise.noText field member) spells

theorem noQuote_of_read {before : List Char} {segments : List Segment}
    (segmented : Segmented before segments) :
    ∀ segment ∈ segments, (grammar.entryIn? segment).isNone = false → '"' ∉ segment.word := by
  intro segment member read
  rcases segmented.inside segment member with ⟨_, some, inked⟩
  cases quoted : segment.quoted with
  | true => simp [entryIn?, quoted] at read
  | false =>
      simp only [entryIn?, quoted, Bool.false_eq_true, if_false] at read
      rcases Option.isSome_iff_exists.mp (Option.isNone_eq_false_iff.mp read) with ⟨entry, found⟩
      exact wordwise.noQuote_of_entryOf? some inked found

section Segment

variable {before tail : List Char} {segment : Segment} {rest : List Segment}
  (segmented : Segmented before (segment :: rest)) (blank : AllBlank tail)

include segmented blank

/-- At the first segment of a text stands what its word has alone, and the note about quotation
marks is right. -/
theorem tokenAt?_of_segment :
    grammar.tokenAt? ⟨before, segment.gap ++ (segment.word ++ (joined rest ++ tail))⟩ =
        ((grammar.entryOf? segment.word).map fun entry =>
          ⟨entry.1, ⟨before, segment.gap ++ (segment.word ++ (joined rest ++ tail))⟩,
            ⟨segment.text.reverse ++ before, joined rest ++ tail⟩, entry.2⟩) ∧
      (Cursor.mk before (segment.gap ++ (segment.word ++ (joined rest ++ tail)))).insideQuotes =
        segment.quoted := by
  cases segmented with
  | cons gapBlank place some inked quoted more =>
      have ends := more.endsWord (by simp [Segment.text, some]) blank
      constructor
      · rw [wordwise.tokenAt?_of_word place gapBlank some inked ends]
        simp [Segment.text]
      · have marks := Cursor.insideQuotes_append_blanks blank before (joined (segment :: rest))
        rw [joined_cons, List.append_assoc, List.append_assoc, ← joined_cons] at marks
        exact marks.trans quoted.symm

theorem nothing_of_entryIn? (unread : grammar.entryIn? segment = none) :
    grammar.tokenAt? ⟨before, segment.gap ++ (segment.word ++ (joined rest ++ tail))⟩ = none ∨
      (Cursor.mk before (segment.gap ++ (segment.word ++ (joined rest ++ tail)))).insideQuotes =
        true := by
  rcases wordwise.tokenAt?_of_segment segmented blank with ⟨found, marks⟩
  cases quoted : segment.quoted with
  | true => exact Or.inr (marks.trans quoted)
  | false =>
      left
      simp only [entryIn?, quoted, Bool.false_eq_true, if_false] at unread
      rw [found, unread]
      rfl

theorem token_of_entryIn? {entry : String × FieldValue}
    (read : grammar.entryIn? segment = .some entry) :
    grammar.tokenAt? ⟨before, segment.gap ++ (segment.word ++ (joined rest ++ tail))⟩ =
        .some ⟨entry.1, ⟨before, segment.gap ++ (segment.word ++ (joined rest ++ tail))⟩,
          ⟨segment.text.reverse ++ before, joined rest ++ tail⟩, entry.2⟩ ∧
      (Cursor.mk before (segment.gap ++ (segment.word ++ (joined rest ++ tail)))).insideQuotes =
        false := by
  rcases wordwise.tokenAt?_of_segment segmented blank with ⟨found, marks⟩
  cases quoted : segment.quoted with
  | true => simp [entryIn?, quoted] at read
  | false =>
      simp only [entryIn?, quoted, Bool.false_eq_true, if_false] at read
      rw [found, read]
      exact ⟨rfl, marks.trans quoted⟩

end Segment

/-- A scan reads the segments of a text one by one and leaves those in which nothing is found. -/
theorem exists_scans {before tail : List Char} {segments : List Segment}
    (segmented : Segmented before segments) (blank : AllBlank tail) :
    ∃ tokens, grammar.Scans ⟨before, joined segments ++ tail⟩ tokens ∧
      tokens.map Token.capture = grammar.capturesIn (byteLength before) segments ∧
      Token.uncovered ⟨before, joined segments ++ tail⟩ tokens =
        joined (grammar.unread segments) ++ tail := by
  induction segmented with
  | nil before => exact ⟨[], .pass_blanks blank, rfl, rfl⟩
  | @cons before segment rest gapBlank place some inked quoted more ih =>
      have here : Segmented before (segment :: rest) :=
        .cons gapBlank place some inked quoted more
      rcases ih with ⟨tokens, scans, captures, uncovered⟩
      have length : byteLength (segment.text.reverse ++ before) =
          byteLength before + byteLength segment.text := by
        rw [byteLength_append, byteLength_reverse, Nat.add_comm]
      rw [length] at captures
      rw [joined_cons, List.append_assoc, List.append_assoc]
      cases entry : grammar.entryIn? segment with
      | none =>
          have behind : segment.text.reverse ++ before =
              segment.word.reverse ++ (segment.gap.reverse ++ before) := by simp [Segment.text]
          have nothing := wordwise.nothing_of_entryIn? here blank entry
          have kept : grammar.unread (segment :: rest) = segment :: grammar.unread rest := by
            simp [unread, entry]
          rw [behind] at scans uncovered
          refine ⟨tokens, scans.pass_word gapBlank some inked nothing, ?_, ?_⟩
          · simpa [capturesIn, entry] using captures
          · rw [kept, joined_cons, ← List.append_assoc,
              Scans.uncovered_append (by simpa using scans)]
            simp [uncovered]
      | some entry =>
          rcases wordwise.token_of_entryIn? here blank entry with ⟨found, outside⟩
          have dropped : grammar.unread (segment :: rest) = grammar.unread rest := by
            simp [unread, entry]
          refine ⟨_, .take found outside scans, ?_, ?_⟩
          · simp [capturesIn, entry, captures, Token.capture, Cursor.offset, length]
          · rw [Token.uncovered, textTo_self, uncovered, dropped, List.nil_append]

section Input

variable {input : String} {segments : List Segment} {tail : List Char}
  (split : input.toList = joined segments ++ tail) (blank : AllBlank tail)
  (segmented : Segmented [] segments)

include split blank segmented

/-- The captures of an input are those in its segments, and the leftover is made of the others. -/
theorem captures_eq : grammar.captures input = grammar.capturesIn 0 segments ∧
    grammar.leftover input = String.ofList (trim (joined (grammar.unread segments))) := by
  rcases wordwise.exists_scans segmented blank with ⟨tokens, scans, captures, uncovered⟩
  have fromStart : grammar.Scans (Cursor.ofText input.toList) tokens := by
    rw [split]
    exact scans
  refine ⟨?_, ?_⟩
  · rw [Grammar.captures, tokens_eq_iff.mpr fromStart]
    exact captures
  · rw [leftover_of_scans fromStart, split]
    refine congrArg String.ofList (Eq.trans (congrArg trim uncovered) ?_)
    exact trim_append_blanks blank _

/-- What is left over are the words in which nothing is found. -/
theorem words_leftover : (words (grammar.leftover input).toList).map Placed.text =
    (grammar.unread segments).map Segment.word := by
  have left : Segmented [] (grammar.unread segments) :=
    segmented.filter (wordwise.noQuote_of_read segmented) id rfl
  rw [(wordwise.captures_eq split blank segmented).2, String.toList_ofList, texts_words_trim, words,
    PartKind.parts, ← List.append_nil (joined _), left.partsFrom_eq .nil, texts_wordsOf]

end Input

end IsWordwise

theorem capturesIn_append (grammar : Grammar) (offset : Nat) (left right : List Segment) :
    grammar.capturesIn offset (left ++ right) = grammar.capturesIn offset left ++
      grammar.capturesIn (offset + byteLength (joined left)) right := by
  induction left generalizing offset with
  | nil => simp [capturesIn, byteLength]
  | cons segment rest ih =>
      have length : offset + byteLength segment.text + byteLength (joined rest) =
          offset + byteLength (joined (segment :: rest)) := by
        simp only [joined_cons, Segment.text, byteLength_append]
        omega
      rw [List.cons_append, capturesIn, capturesIn, ih, length, List.append_assoc]

/-- What the captures in some segments say. -/
theorem entries_capturesIn (grammar : Grammar) (offset : Nat) (segments : List Segment) :
    (grammar.capturesIn offset segments).map Capture.entry =
      segments.filterMap grammar.entryIn? := by
  induction segments generalizing offset with
  | nil => rfl
  | cons segment rest ih =>
      rw [capturesIn, List.map_append, ih, List.filterMap_cons]
      cases grammar.entryIn? segment with
      | none => rfl
      | some entry => rfl

theorem unread_append (grammar : Grammar) (left right : List Segment) :
    grammar.unread (left ++ right) = grammar.unread left ++ grammar.unread right :=
  List.filter_append left right

end Grammar

end SearchCommands
