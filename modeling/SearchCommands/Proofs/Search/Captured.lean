import SearchCommands.Proofs.Search.Phases

/-!
# What a composed command gives to the two phases

The words of a composed command, as pieces for the first phase and as pieces of what it leaves over
for the second one.  The first phase captures the criteria in the order of typing, the second one
everything else.
-/

namespace SearchCommands

open Text FieldPattern

namespace Search

open Beatmap

namespace Word

/-- The item that the word is, if it is one. -/
def item? : Word → Option Item
  | username _ => none
  | item own => some own

/-- What the first phase captures for the word. -/
def tag? : Word → Option (String × FieldValue)
  | item (.criterion measure _ operator digits) =>
      some (measure.field, Field.boundOf operator digits)
  | _ => none

/-- The pieces of words. -/
def allPieces (words : List (List Char × Word)) : List Piece :=
  words.flatMap fun word => word.2.pieces word.1

/-- What words leave over after the first phase. -/
def remaining (words : List (List Char × Word)) : List Piece :=
  words.filterMap fun word => word.2.kept word.1

theorem laid_append (left right : List Piece) : laid (left ++ right) = laid left ++ laid right := by
  simp [laid]

theorem laid_allPieces (words : List (List Char × Word)) :
    laid (allPieces words) = words.flatMap fun word => word.1 ++ word.2.typed := by
  induction words with
  | nil => rfl
  | cons word rest ih =>
      rw [allPieces, List.flatMap_cons, laid_append, laid_pieces, List.flatMap_cons]
      exact congrArg _ ih

theorem laid_remaining (words : List (List Char × Word)) :
    laid ((allPieces words).filter fun piece => piece.tag.isNone) = laid (remaining words) := by
  induction words with
  | nil => rfl
  | cons word rest ih =>
      have split : remaining (word :: rest) = (word.2.kept word.1).toList ++ remaining rest := by
        rw [remaining, List.filterMap_cons]
        cases word.2.kept word.1 <;> rfl
      rw [allPieces, List.flatMap_cons, List.filter_append, laid_append, laid_untagged, split,
        laid_append]
      exact congrArg _ ih

theorem tags_allPieces (words : List (List Char × Word)) :
    (allPieces words).filterMap Piece.tag = words.filterMap fun word => word.2.tag? := by
  induction words with
  | nil => rfl
  | cons word rest ih =>
      have own : (word.2.pieces word.1).filterMap Piece.tag = word.2.tag?.toList := by
        rcases word with ⟨gap, value | (_ | _ | _ | _)⟩ <;> rfl
      rw [allPieces, List.flatMap_cons, List.filterMap_append, own, List.filterMap_cons]
      cases word.2.tag? with
      | none => exact ih
      | some tag => exact congrArg _ ih

theorem tags_remaining (words : List (List Char × Word)) :
    (remaining words).filterMap Piece.tag = words.filterMap fun word => word.2.capture? := by
  rw [remaining, List.filterMap_filterMap]
  apply List.filterMap_congr
  intro word _
  rw [kept]
  cases word.2.capture? <;> rfl

theorem separated_allPieces {words : List (List Char × Word)}
    (valid : ∀ word ∈ words, word.2.IsValid) (blank : ∀ word ∈ words, AllBlank word.1)
    (apart : ∀ word ∈ words.tail, word.1 ≠ []) : Separated [] (allPieces words) := by
  have gaps {words : List (List Char × Word)} (valid : ∀ word ∈ words, word.2.IsValid)
      (blank : ∀ word ∈ words, AllBlank word.1) (apart : ∀ word ∈ words, word.1 ≠ []) :
      ∀ piece ∈ allPieces words, AllBlank piece.gap ∧ piece.gap ≠ [] := by
    intro piece member
    rcases List.mem_flatMap.mp member with ⟨word, wordMember, inside⟩
    have tail := gaps_of_valid (valid word wordMember) word.1
    rcases exists_pieces word.1 word.2 with ⟨first, rest, shape, gap⟩
    rw [shape] at inside tail
    rcases List.mem_cons.mp inside with rfl | inside
    · rw [gap]
      exact ⟨blank word wordMember, apart word wordMember⟩
    · exact tail piece inside
  cases words with
  | nil => trivial
  | cons word rest =>
      have restGaps := gaps (fun other member => valid other (List.mem_cons_of_mem _ member))
        (fun other member => blank other (List.mem_cons_of_mem _ member)) apart
      have tail := gaps_of_valid (valid word (by simp)) word.1
      rcases exists_pieces word.1 word.2 with ⟨first, more, shape, gap⟩
      have split : allPieces (word :: rest) = first :: (more ++ allPieces rest) := by
        rw [allPieces, List.flatMap_cons, shape]
        rfl
      rw [shape] at tail
      have others : ∀ piece ∈ more ++ allPieces rest, AllBlank piece.gap ∧ piece.gap ≠ [] := by
        intro piece member
        rcases List.mem_append.mp member with inside | inside
        · exact tail piece inside
        · exact restGaps piece inside
      rw [split]
      apply separated_of_tail
      · intro piece member
        rcases List.mem_cons.mp member with rfl | member
        · rw [gap]
          exact blank word (by simp)
        · exact (others piece member).1
      · exact fun piece member => (others piece member).2

/-- The first phase captures the criteria among words and leaves the rest. -/
theorem exists_criteria_scans {words : List (List Char × Word)} {trailing : List Char}
    (valid : ∀ word ∈ words, word.2.IsValid) (blank : ∀ word ∈ words, AllBlank word.1)
    (apart : ∀ word ∈ words.tail, word.1 ≠ []) (trailingBlank : AllBlank trailing) :
    ∃ tokens, Criteria.grammar.Scans (Cursor.ofText (laid (allPieces words) ++ trailing)) tokens ∧
      tokens.map Token.entry =
        words.filterMap (fun word => word.2.tag?) ∧
      Token.uncovered (Cursor.ofText (laid (allPieces words) ++ trailing)) tokens =
        laid (remaining words) ++ trailing := by
  have separated := separated_allPieces valid blank apart
  have fits : ∀ piece ∈ allPieces words, Criteria.grammar.Fits piece := by
    intro piece member
    rcases List.mem_flatMap.mp member with ⟨word, wordMember, inside⟩
    exact fits_pieces (valid word wordMember) word.1 piece inside
  rcases Criteria.isPlain.exists_scans (by simp) separated trailingBlank fits with
    ⟨tokens, scans, entries, uncovered⟩
  rw [laid_remaining] at uncovered
  rw [tags_allPieces] at entries
  exact ⟨tokens, scans, entries, uncovered⟩

end Word

namespace Composition

variable {composition : Composition}

/-- All words in the order of typing. -/
def parts (composition : Composition) : List (List Char × Word) :=
  composition.leading.map (fun item => (item.1, .item item.2)) ++
    composition.username.toList.map (fun value => (value.1, .username value.2)) ++
    composition.items.map (fun item => (item.1, .item item.2))

theorem words_eq (composition : Composition) :
    composition.words = composition.parts.map fun part => (part.1, part.2.typed) := by
  simp only [words, parts, List.map_append, List.map_map]
  rfl

theorem all_eq (composition : Composition) :
    composition.all = composition.parts.filterMap fun part => part.2.item? := by
  have items (list : List (List Char × Item)) :
      (list.map fun item => (item.1, Word.item item.2)).filterMap (fun part => part.2.item?) =
        list.map Prod.snd := by
    rw [List.filterMap_map]
    exact congrFun (List.filterMap_eq_map (f := Prod.snd)) list
  have none : (composition.username.toList.map fun value =>
      (value.1, Word.username value.2)).filterMap (fun part => part.2.item?) = [] := by
    cases composition.username <;> rfl
  rw [all, parts, List.filterMap_append, List.filterMap_append, items, items, none,
    List.append_nil, List.map_append]

theorem text_eq (composition : Composition) :
    composition.text = laid (Word.allPieces composition.parts) ++ composition.trailing := by
  rw [text, Word.laid_allPieces, words_eq, List.flatMap_map]

theorem IsValid.parts (valid : composition.IsValid) :
    ∀ part ∈ composition.parts, part.2.IsValid ∧ AllBlank part.1 := by
  intro part member
  refine ⟨?_, ?_⟩
  · simp only [Composition.parts, List.mem_append, List.mem_map, Option.mem_toList] at member
    rcases member with (⟨item, inside, rfl⟩ | ⟨value, inside, rfl⟩) | ⟨item, inside, rfl⟩
    · exact (valid.leading item inside).1
    · exact valid.username value inside
    · exact valid.items item inside
  · apply valid.blank (part.1, part.2.typed)
    rw [words_eq]
    exact List.mem_map_of_mem member

theorem IsValid.apart (valid : composition.IsValid) :
    ∀ part ∈ composition.parts.tail, part.1 ≠ [] := by
  intro part member
  apply valid.separated (part.1, part.2.typed)
  rw [words_eq, ← List.map_tail]
  exact List.mem_map_of_mem member

/-- The first phase captures the criteria and leaves the rest. -/
theorem IsValid.exists_criteria_scans (valid : composition.IsValid) :
    ∃ tokens, Criteria.grammar.Scans (Cursor.ofText composition.text) tokens ∧
      tokens.map Token.entry =
        composition.parts.filterMap (fun part => part.2.tag?) ∧
      Token.uncovered (Cursor.ofText composition.text) tokens =
        laid (Word.remaining composition.parts) ++ composition.trailing := by
  rw [text_eq]
  exact Word.exists_criteria_scans (fun part member => (valid.parts part member).1)
    (fun part member => (valid.parts part member).2) valid.apart valid.trailing

theorem trim_remaining (valid : composition.IsValid) :
    trim (laid (Word.remaining composition.parts) ++ composition.trailing) =
      laid (startOf (Word.remaining composition.parts)) := by
  apply trim_laid valid.trailing
  · intro piece member
    rcases List.mem_filterMap.mp member with ⟨part, partMember, kept⟩
    rcases Option.map_eq_some_iff.mp kept with ⟨entry, _, rfl⟩
    exact (valid.parts part partMember).2
  · intro piece member
    rcases List.mem_filterMap.mp member with ⟨part, partMember, kept⟩
    exact Word.trimmed_kept (valid.parts part partMember).1 kept

theorem mem_tail_remaining {parts : List (List Char × Word)} {piece : Piece}
    (member : piece ∈ (Word.remaining parts).tail) :
    ∃ part ∈ parts.tail, part.2.kept part.1 = some piece := by
  cases parts with
  | nil => cases member
  | cons part rest =>
      apply List.mem_filterMap.mp
      rw [Word.remaining, List.filterMap_cons] at member
      cases kept : part.2.kept part.1 with
      | none =>
          simp only [kept] at member
          exact List.mem_of_mem_tail member
      | some first =>
          simp only [kept] at member
          exact member

theorem gap_of_kept {gap : List Char} {word : Word} {piece : Piece}
    (kept : word.kept gap = some piece) : piece.gap = gap := by
  rcases Option.map_eq_some_iff.mp kept with ⟨entry, _, rfl⟩
  rfl

theorem separated_remaining (valid : composition.IsValid) :
    Separated [] (startOf (Word.remaining composition.parts)) ∧
      ∀ piece ∈ (Word.remaining composition.parts).tail, AllBlank piece.gap ∧ piece.gap ≠ [] := by
  have tail : ∀ piece ∈ (Word.remaining composition.parts).tail,
      AllBlank piece.gap ∧ piece.gap ≠ [] := by
    intro piece member
    rcases mem_tail_remaining member with ⟨part, partMember, kept⟩
    rw [gap_of_kept kept]
    exact ⟨(valid.parts part (List.mem_of_mem_tail partMember)).2, valid.apart part partMember⟩
  refine ⟨?_, tail⟩
  cases shape : Word.remaining composition.parts with
  | nil => trivial
  | cons first rest =>
      rw [shape] at tail
      apply separated_of_tail
      · intro piece member
        rcases List.mem_cons.mp member with rfl | member
        · exact AllBlank.nil
        · exact (tail piece member).1
      · exact fun piece member => (tail piece member).2

theorem tag_of_remaining {parts : List (List Char × Word)} {piece : Piece}
    (member : piece ∈ Word.remaining parts) : piece.tag.isNone = false := by
  rcases List.mem_filterMap.mp member with ⟨part, _, kept⟩
  rcases Option.map_eq_some_iff.mp kept with ⟨entry, _, rfl⟩
  rfl

/-- Of pieces that are all words of fields with aliases, the second phase leaves nothing. -/
theorem exists_scans_tagged {before : List Char} {pieces : List Piece}
    (even : before.count '"' % 2 = 0) (separated : Separated before pieces)
    (fits : ∀ piece ∈ pieces, grammar.Fits piece)
    (tagged : ∀ piece ∈ pieces, piece.tag.isNone = false) :
    ∃ tokens, grammar.Scans ⟨before, laid pieces⟩ tokens ∧
      tokens.map Token.entry = pieces.filterMap Piece.tag ∧
      Token.uncovered ⟨before, laid pieces⟩ tokens = [] := by
  rcases isPlain.exists_scans even separated AllBlank.nil fits with
    ⟨tokens, scans, entries, uncovered⟩
  rw [List.append_nil] at scans uncovered
  have untagged : (pieces.filter fun piece => piece.tag.isNone) = [] := by
    rw [List.filter_eq_nil_iff]
    intro piece member
    rw [tagged piece member]
    exact Bool.false_ne_true
  rw [untagged] at uncovered
  exact ⟨tokens, scans, entries, uncovered⟩

/-- Nothing of the criteria before the name of the player is left. -/
theorem remaining_eq (valid : composition.IsValid) :
    Word.remaining composition.parts =
      (composition.username.toList.map fun value =>
        ⟨value.1, value.2.text, some ("username", .text value.2.content)⟩) ++
      Word.remaining (composition.items.map fun item => (item.1, .item item.2)) := by
  have leading : Word.remaining (composition.leading.map fun item => (item.1, .item item.2)) =
      [] := by
    rw [Word.remaining, List.filterMap_eq_nil_iff]
    intro part member
    rcases List.mem_map.mp member with ⟨⟨gap, item⟩, inside, rfl⟩
    have isCriterion := (valid.leading _ inside).2
    cases item with
    | criterion => rfl
    | exact | text | playcount => cases isCriterion
  rw [parts, Word.remaining, List.filterMap_append, List.filterMap_append]
  change Word.remaining _ ++ _ ++ Word.remaining _ = _
  rw [leading, List.nil_append]
  cases composition.username <;> rfl

theorem fits_items (valid : composition.IsValid) :
    ∀ piece ∈ Word.remaining (composition.items.map fun item => (item.1, .item item.2)),
      grammar.Fits piece := by
  intro piece member
  rcases List.mem_filterMap.mp member with ⟨part, partMember, kept⟩
  rcases List.mem_map.mp partMember with ⟨item, inside, rfl⟩
  exact Word.fits_kept (valid.items item inside) kept

/-- The second phase captures everything that the first one left. -/
theorem IsValid.exists_search_scans (valid : composition.IsValid) :
    ∃ tokens, grammar.Scans
        (Cursor.ofText (laid (startOf (Word.remaining composition.parts)))) tokens ∧
      tokens.map Token.entry =
        composition.parts.filterMap (fun part => part.2.capture?) ∧
      Token.uncovered (Cursor.ofText (laid (startOf (Word.remaining composition.parts)))) tokens =
        [] := by
  rcases separated_remaining valid with ⟨separated, gaps⟩
  rw [← Word.tags_remaining]
  have shape := remaining_eq valid
  have tagged : ∀ piece ∈ Word.remaining composition.parts, piece.tag.isNone = false :=
    fun piece member => tag_of_remaining member
  have fits := fits_items valid
  generalize Word.remaining (composition.items.map fun item => (item.1, .item item.2)) = items
    at shape fits
  -- the name of the player has no alias, so a plain scan starts behind it
  cases player : composition.username with
  | none =>
      simp only [player, Option.toList_none, List.map_nil, List.nil_append] at shape
      rw [shape] at separated tagged ⊢
      rw [← tags_startOf]
      refine exists_scans_tagged (by simp) separated ?_ ?_
      · intro piece member
        rcases exists_of_mem_startOf member with ⟨own, gap, ownMember, rfl⟩
        exact fits own ownMember
      · intro piece member
        rcases exists_of_mem_startOf member with ⟨own, gap, ownMember, rfl⟩
        exact tagged own ownMember
  | some value =>
      rcases value with ⟨gap, value⟩
      rcases valid.username _ player with ⟨valueValid, noPlaycount⟩
      simp only [player, Option.toList_some, List.map_cons, List.map_nil, List.singleton_append]
        at shape
      rw [shape] at separated gaps tagged ⊢
      have isPiece := Operand.isPiece valueValid
      have itemsSeparated : Separated value.text.reverse items :=
        separated_of_gaps (fun piece member => (gaps piece member).1)
          (fun piece member => (gaps piece member).2)
      have ends := itemsSeparated.endsWord (by simp [isPiece.ne_nil]) AllBlank.nil
      rw [List.append_nil] at ends
      have even : value.text.reverse.count '"' % 2 = 0 := by
        rw [List.count_reverse]
        exact isPiece.even
      rcases exists_scans_tagged even itemsSeparated fits
        (fun piece member => tagged piece (List.mem_cons_of_mem _ member)) with
        ⟨tokens, scans, entries, uncovered⟩
      have text : laid (startOf (⟨gap, value.text, some ("username", .text value.content)⟩ ::
          items)) = value.text ++ laid items := by
        simp [startOf, laid]
      have found := tokenAt?_username valueValid noPlaycount ends
      rw [text]
      refine ⟨_, .take found rfl scans, ?_, ?_⟩
      · rw [List.map_cons, entries]
        rfl
      · change Token.uncovered ⟨[], _⟩ _ = []
        rw [Token.uncovered, Grammar.textTo_self, List.nil_append, uncovered]

end Composition

end Search

end SearchCommands
