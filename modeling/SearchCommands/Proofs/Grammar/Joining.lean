import SearchCommands.Proofs.Beatmap.Words
import SearchCommands.Proofs.Grammar.WordByWord

/-!
# Reading joined texts

A grammar of flags and numbers reads two texts with a blank between them like each of them alone: it
has the captures of the first one and then those of the second one, which end later by what stands
before them, and the words that it leaves over are joined as well.  The only thing that a text could
do to the next one is to leave a quotation mark open, so the first text has to have its marks in
pairs.
-/

namespace SearchCommands

open Text

/-- What a capture says and where it ends if its text stands behind so many bytes. -/
def Capture.ending (shift : Nat) (capture : Capture) : String × FieldValue × Nat :=
  (capture.field, capture.value, shift + capture.stop)

theorem Capture.ending_ending (shift shift' : Nat) {captures captures' : Captures}
    (same : captures.map (ending 0) = captures'.map (ending shift')) :
    captures.map (ending shift) = captures'.map (ending (shift + shift')) := by
  have later (captures : Captures) (shift' : Nat) :
      (captures.map (ending shift')).map (fun end' => (end'.1, end'.2.1, shift + end'.2.2)) =
        captures.map (ending (shift + shift')) := by
    simp [ending, Nat.add_assoc]
  have shifted := congrArg (List.map fun end' => (end'.1, end'.2.1, shift + end'.2.2)) same
  rwa [later, later, Nat.add_zero] at shifted

namespace Grammar

variable {grammar : Grammar}

/-- What the captures of some texts say and where they end, each text with a blank behind it and the
first one behind so many bytes. -/
def endingsOf (grammar : Grammar) (offset : Nat) : List String → List (String × FieldValue × Nat)
  | [] => []
  | text :: rest =>
      (grammar.captures text).map (Capture.ending offset) ++
        grammar.endingsOf (offset + byteLength text.toList + 1) rest

/-- The words that the grammar leaves over. -/
def wordsLeft (grammar : Grammar) (input : String) : List (List Char) :=
  (words (grammar.leftover input).toList).map Placed.text

theorem endings_capturesIn (grammar : Grammar) (shift offset : Nat) (segments : List Segment) :
    (grammar.capturesIn (shift + offset) segments).map (Capture.ending 0) =
      (grammar.capturesIn offset segments).map (Capture.ending shift) := by
  induction segments generalizing offset with
  | nil => rfl
  | cons segment rest ih =>
      simp only [capturesIn, List.map_append, Nat.add_assoc, ih]
      cases grammar.entryIn? segment with
      | none => rfl
      | some entry => simp [Capture.ending]

/-- Blanks in front of a text only shift its captures. -/
theorem endings_indented (grammar : Grammar) (offset : Nat) (blanks : List Char)
    (segments : List Segment) :
    (grammar.capturesIn offset (indented blanks segments)).map (Capture.ending 0) =
      (grammar.capturesIn 0 segments).map (Capture.ending (offset + byteLength blanks)) := by
  cases segments with
  | nil => rfl
  | cons first rest =>
      have same : grammar.entryIn? ⟨blanks ++ first.gap, first.word, first.quoted⟩ =
          grammar.entryIn? first := rfl
      have length : offset + byteLength (blanks ++ first.gap ++ first.word) =
          offset + byteLength blanks + (0 + byteLength first.text) := by
        simp only [Segment.text, byteLength_append]
        omega
      simp only [indented, capturesIn, same, List.map_append, Segment.text] at length ⊢
      rw [length, endings_capturesIn]
      cases grammar.entryIn? first with
      | none => rfl
      | some entry => simp [Capture.ending]

theorem words_unread_indented (grammar : Grammar) (blanks : List Char) (segments : List Segment) :
    (grammar.unread (indented blanks segments)).map Segment.word =
      (grammar.unread segments).map Segment.word := by
  cases segments with
  | nil => rfl
  | cons first rest =>
      have same : grammar.entryIn? ⟨blanks ++ first.gap, first.word, first.quoted⟩ =
          grammar.entryIn? first := rfl
      simp only [unread, indented, List.filter_cons, same]
      split
      · rfl
      · rfl

namespace IsWordwise

variable (wordwise : grammar.IsWordwise)

include wordwise

/-- Two texts with a blank between them are read one after the other. -/
theorem captures_joined {left : String} (even : left.toList.count '"' % 2 = 0) (right : String) :
    (∃ later, grammar.captures (left ++ " " ++ right) = grammar.captures left ++ later ∧
        later.map (Capture.ending 0) = (grammar.captures right).map
          (Capture.ending (byteLength left.toList + 1))) ∧
      grammar.wordsLeft (left ++ " " ++ right) =
        grammar.wordsLeft left ++ grammar.wordsLeft right := by
  rcases Segmented.exists_of_text [] left.toList (Or.inl rfl) with
    ⟨segments, tail, split, blank, segmented⟩
  rcases Segmented.exists_of_text [] right.toList (Or.inl rfl) with
    ⟨segments', tail', split', blank', segmented'⟩
  have marks : (joined segments).count '"' % 2 = 0 := by
    rwa [split, List.count_append, blank.count_quote, Nat.add_zero] at even
  have gapBlank : AllBlank (tail ++ [' ']) := blank.append (by decide)
  have indentedSegmented : Segmented ((joined segments).reverse ++ [])
      (indented (tail ++ [' ']) segments') :=
    segmented'.indented gapBlank (by simp) (by simpa using marks)
  rcases exists_joined_indented gapBlank blank' segments' with ⟨tail'', whole, blank''⟩
  have joinedSplit : (left ++ " " ++ right).toList =
      joined (segments ++ indented (tail ++ [' ']) segments') ++ tail'' := by
    rw [joined_append, List.append_assoc, ← whole, ← split']
    simp [split]
  have joinedSegmented := segmented.append indentedSegmented (by simpa using marks)
  have length : byteLength left.toList + 1 =
      0 + byteLength (joined segments) + byteLength (tail ++ [' ']) := by
    have space : byteLength [' '] = 1 := by decide
    rw [split, byteLength_append, byteLength_append, space]
    omega
  constructor
  · refine ⟨grammar.capturesIn (0 + byteLength (joined segments))
      (indented (tail ++ [' ']) segments'), ?_, ?_⟩
    · rw [(wordwise.captures_eq joinedSplit blank'' joinedSegmented).1, capturesIn_append,
        (wordwise.captures_eq split blank segmented).1]
    · rw [(wordwise.captures_eq split' blank' segmented').1, length, endings_indented]
  · rw [wordsLeft, wordsLeft, wordsLeft, wordwise.words_leftover split blank segmented,
      wordwise.words_leftover split' blank' segmented',
      wordwise.words_leftover joinedSplit blank'' joinedSegmented, unread_append, List.map_append,
      words_unread_indented]

/-- A line of texts is read text by text, behind any number of bytes. -/
theorem captures_intercalate {texts : List String}
    (even : ∀ text ∈ texts.dropLast, text.toList.count '"' % 2 = 0) (offset : Nat) :
    (grammar.captures (" ".intercalate texts)).map (Capture.ending offset) =
        grammar.endingsOf offset texts ∧
      grammar.wordsLeft (" ".intercalate texts) = texts.flatMap grammar.wordsLeft := by
  induction texts generalizing offset with
  | nil =>
      have empty : (" ".intercalate []).toList = joined [] ++ [] := rfl
      constructor
      · rw [(wordwise.captures_eq empty .nil (.nil [])).1]
        rfl
      · exact wordwise.words_leftover empty .nil (.nil [])
  | cons text rest ih =>
      cases rest with
      | nil => simp [endingsOf]
      | cons next rest =>
          have evenText := even text (by simp)
          rcases wordwise.captures_joined evenText (" ".intercalate (next :: rest)) with
            ⟨⟨later, captures, endings⟩, leftover⟩
          rcases ih (fun other member => even other (List.mem_cons_of_mem text member))
            (offset + byteLength text.toList + 1) with ⟨restEndings, restLeftover⟩
          rw [String.intercalate_cons_cons]
          constructor
          · rw [captures, List.map_append, Capture.ending_ending offset _ endings, endingsOf,
              ← restEndings, Nat.add_assoc]
          · rw [leftover, restLeftover]
            exact List.flatMap_cons.symm

theorem entries_of_word {word : List Char} (some : word ≠ []) (inked : NoBlank word) :
    (grammar.captures (String.ofList word)).map Capture.entry = (grammar.entryOf? word).toList := by
  have single : Segmented [] [⟨[], word, false⟩] :=
    .cons .nil (Or.inl rfl) some inked rfl (.nil _)
  have split : (String.ofList word).toList = joined [⟨[], word, false⟩] ++ [] := by
    simp [joined, Segment.text]
  rw [(wordwise.captures_eq split .nil single).1, entries_capturesIn]
  cases found : grammar.entryOf? word with
  | none => simp [entryIn?, found]
  | some entry => simp [entryIn?, found]

/-- A line without quotation marks is read word by word. -/
theorem captures_words {input : String} (plain : '"' ∉ input.toList) :
    (grammar.captures input).map Capture.entry =
      (words input.toList).flatMap fun word =>
        (grammar.captures (String.ofList word.text)).map Capture.entry := by
  rcases Segmented.exists_of_text [] input.toList (Or.inl rfl) with
    ⟨segments, tail, split, blank, segmented⟩
  have unquoted : '"' ∉ joined segments := by
    rw [split, List.mem_append, not_or] at plain
    exact plain.1
  have texts : (words input.toList).map Placed.text = segments.map Segment.word := by
    rw [words, PartKind.parts, split, segmented.partsFrom_eq blank, texts_wordsOf]
  rw [(wordwise.captures_eq split blank segmented).1, entries_capturesIn,
    ← List.flatMap_map Placed.text fun text =>
      (grammar.captures (String.ofList text)).map Capture.entry, texts, List.flatMap_map,
    List.filterMap_eq_flatMap_toList]
  apply List.flatMap_congr
  intro segment member
  rcases segmented.inside segment member with ⟨_, some, inked⟩
  rw [wordwise.entries_of_word some inked, entryIn?,
    segmented.quoted_eq_false unquoted segment member]
  rfl

end IsWordwise

/-- A grammar of flags and numbers without quotation marks in their aliases, such as that of the
criteria for beatmaps, reads a line text by text if only the last text may leave a mark open.  So it
reads a line without marks word by word. -/
theorem captures_text_by_text (wordwise : grammar.IsWordwise) :
    (∀ left right : String, left.toList.count '"' % 2 = 0 →
      (∃ later, grammar.captures (left ++ " " ++ right) = grammar.captures left ++ later ∧
          later.map (Capture.ending 0) = (grammar.captures right).map
            (Capture.ending (byteLength left.toList + 1))) ∧
        grammar.wordsLeft (left ++ " " ++ right) =
          grammar.wordsLeft left ++ grammar.wordsLeft right) ∧
    (∀ texts : List String, (∀ text ∈ texts.dropLast, text.toList.count '"' % 2 = 0) →
      (grammar.captures (" ".intercalate texts)).map (Capture.ending 0) =
          grammar.endingsOf 0 texts ∧
        grammar.wordsLeft (" ".intercalate texts) = texts.flatMap grammar.wordsLeft) ∧
    ∀ input : String, '"' ∉ input.toList →
      (grammar.captures input).map Capture.entry =
        (words input.toList).flatMap fun word =>
          (grammar.captures (String.ofList word.text)).map Capture.entry :=
  ⟨fun _ right even => wordwise.captures_joined even right,
    fun _ even => wordwise.captures_intercalate even 0, fun _ plain => wordwise.captures_words plain⟩

end Grammar

/-- The criteria for beatmaps are numbers. -/
theorem Beatmap.Criteria.isWordwise : Criteria.grammar.IsWordwise where
  noText := Criteria.noText
  quoteFree := Criteria.isPlain.isQuoteFree

/-- The pair of `cs>4 "x ar<9"` is closed, so a second text with an open mark is read behind it. -/
theorem Beatmap.Criteria.captures_text_by_text_pair :
    let left := "cs>4 \"x ar<9\""
    let right := "od=8 \"bpm>180"
    Criteria.grammar.IsWordwise ∧ left.toList.count '"' % 2 = 0 ∧
      (∃ later, Criteria.grammar.captures (left ++ " " ++ right) =
          Criteria.grammar.captures left ++ later ∧
        later.map (Capture.ending 0) = (Criteria.grammar.captures right).map
          (Capture.ending (byteLength left.toList + 1))) ∧
      Criteria.grammar.wordsLeft (left ++ " " ++ right) =
        Criteria.grammar.wordsLeft left ++ Criteria.grammar.wordsLeft right := by
  intro left right
  have even : left.toList.count '"' % 2 = 0 := by decide
  exact ⟨isWordwise, even, (Grammar.captures_text_by_text isWordwise).1 left right even⟩

end SearchCommands
