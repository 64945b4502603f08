import SearchCommands.Proofs.Text.Places
import SearchCommands.Proofs.Text.Spacing

/-!
# Texts with marked words

A text with two of its words marked, so that others can be typed in their places.  Trimming such a
text trims what stands before the first word and what stands behind the second one.
-/

namespace SearchCommands

open Text

namespace Text

/-- The blanks before a word stand before the text that ends with it. -/
theorem dropWhile_around {word : List Char} (inked : NoBlank word) (some : word ≠ [])
    (lead tail : List Char) :
    (lead ++ (word ++ tail)).dropWhile isBlank = lead.dropWhile isBlank ++ (word ++ tail) := by
  rcases exists_blanks lead with ⟨blanks, core, rfl, blank, coreInked⟩
  have starts : StartsInked (core ++ (word ++ tail)) := by
    cases core with
    | nil => exact inked.startsInked.append some
    | cons c core => exact coreInked
  rw [List.append_assoc, dropWhile_blanks blank starts, dropWhile_blanks blank coreInked]

theorem trimEnd_word {word : List Char} (inked : NoBlank word) (tail : List Char) :
    trimEnd (word ++ tail) = word ++ trimEnd tail :=
  trimEnd_append (Or.inr inked.endsInked)

/-- Trimming a text with a word in it trims what stands before the word and what stands behind it. -/
theorem trim_around {word : List Char} (inked : NoBlank word) (some : word ≠ [])
    (lead tail : List Char) :
    trim (lead ++ (word ++ tail)) = lead.dropWhile isBlank ++ (word ++ trimEnd tail) := by
  have ends := trimEnd_word inked tail
  rw [trim, dropWhile_around inked some, trimEnd_append (Or.inl (by simp [ends, some])), ends]

theorem count_quote_dropWhile (text : List Char) :
    (text.dropWhile isBlank).count '"' = text.count '"' := by
  rcases exists_blanks text with ⟨blanks, core, rfl, blank, inked⟩
  rw [dropWhile_blanks blank inked, List.count_append, blank.count_quote, Nat.zero_add]

theorem count_quote_trimEnd (text : List Char) : (trimEnd text).count '"' = text.count '"' := by
  rcases exists_trimEnd text with ⟨blanks, split, blank, _⟩
  have counted := congrArg (List.count '"') split
  rw [List.count_append, blank.count_quote, Nat.add_zero] at counted
  exact counted.symm

theorem length_words_trimEnd (text : List Char) (offset offset' : Nat) :
    (PartKind.word.partsFrom offset (trimEnd text)).length =
      (PartKind.word.partsFrom offset' text).length := by
  rcases exists_trimEnd text with ⟨blanks, split, blank, _⟩
  have same := congrArg List.length (PartKind.word.texts_partsFrom (trimEnd text) offset offset')
  rw [List.length_map, List.length_map] at same
  have whole := congrArg (PartKind.word.partsFrom offset') split
  rw [word_separates (.of_allBlank blank), PartKind.partsFrom_of_allBlank blank,
    List.append_nil] at whole
  rw [same, whole]

theorem StartsWord.dropWhile {text : List Char} (starts : StartsWord text) :
    StartsWord (text.dropWhile isBlank) := by
  have split : text.takeWhile isBlank ++ text.dropWhile isBlank = text :=
    List.takeWhile_append_dropWhile
  rw [← split] at starts
  exact starts.of_append

/-- Whether a word can end before a text is decided by the first character of the text. -/
theorem EndsWord.append_congr {left right : List Char} (ends : EndsWord (left ++ right))
    (some : left ≠ []) (right' : List Char) : EndsWord (left ++ right') := by
  rcases List.exists_cons_of_ne_nil some with ⟨c, more, rfl⟩
  exact ends

theorem EndsWord.trimEnd {text : List Char} (ends : EndsWord text) : EndsWord (trimEnd text) := by
  rcases exists_trimEnd text with ⟨blanks, split, _⟩
  intro c first
  apply ends c
  rw [split, List.head?_append, Option.mem_def.mp first]
  rfl

end Text

/-- A text in which two words are marked. -/
structure Marked where
  left : List Char
  first : List Char
  middle : List Char
  second : List Char
  right : List Char

namespace Marked

def text (marked : Marked) : List Char :=
  marked.left ++ (marked.first ++ (marked.middle ++ (marked.second ++ marked.right)))

/-- The text with two other words in the places of the marked ones. -/
def retype (marked : Marked) (first second : List Char) : Marked :=
  { marked with first := first, second := second }

/-- The first word, at its place. -/
def firstWord (marked : Marked) : Placed := ⟨byteLength marked.left, marked.first⟩

/-- The second word, at its place. -/
def secondWord (marked : Marked) : Placed :=
  ⟨byteLength (marked.left ++ (marked.first ++ marked.middle)), marked.second⟩

/-- Each of the two is a word of the text. -/
structure AreWords (marked : Marked) : Prop where
  first : marked.firstWord ∈ words marked.text
  second : marked.secondWord ∈ words marked.text

/-- What stands around the words. -/
structure Apart (marked : Marked) : Prop where
  firstStarts : StartsWord marked.left
  firstEnds : EndsWord (marked.middle ++ (marked.second ++ marked.right))
  between : marked.middle ≠ []
  secondStarts : StartsWord marked.middle
  secondEnds : EndsWord marked.right

theorem text_eq (marked : Marked) : marked.text =
    (marked.left ++ (marked.first ++ marked.middle)) ++ (marked.second ++ marked.right) := by
  simp [text]

theorem AreWords.apart {marked : Marked} (areWords : marked.AreWords) : marked.Apart := by
  rcases split_of_mem_words areWords.first with ⟨firstStarts, _, _, firstEnds⟩
  have second := areWords.second
  rw [text_eq] at second
  rcases split_of_mem_words second with ⟨secondStarts, some, inked, secondEnds⟩
  refine ⟨firstStarts, firstEnds, ?_, secondStarts.of_append.of_append, secondEnds⟩
  intro empty
  rcases List.exists_cons_of_ne_nil some with ⟨c, more, shape⟩
  have isBlank := firstEnds c (by simp [empty, shape])
  rw [inked c (by simp [shape])] at isBlank
  cases isBlank

/-- Two words of a text, one behind the other, can be marked. -/
theorem exists_marked {text : List Char} {first second : Placed} (firstMember : first ∈ words text)
    (secondMember : second ∈ words text) (order : first.stop ≤ second.start) :
    ∃ marked : Marked, text = marked.text ∧ marked.firstWord = first ∧ marked.secondWord = second ∧
      marked.AreWords := by
  rcases split_of_mem_partsFrom firstMember with ⟨left, right, split, start, _⟩
  rcases split_of_mem_partsFrom secondMember with ⟨left', right', split', start', _⟩
  rw [Nat.zero_add] at start start'
  have same : left ++ first.text ++ right = left' ++ (second.text ++ right') := by
    rw [List.append_assoc, ← split, split']
  have length : byteLength (left ++ first.text) ≤ byteLength left' := by
    rw [byteLength_append, ← start, ← start']
    exact order
  rcases split_of_byteLength_le same length with ⟨middle, rfl, _⟩
  rw [List.append_assoc] at start'
  have firstEq : first = ⟨byteLength left, first.text⟩ := by rw [← start]
  have secondEq : second = ⟨byteLength (left ++ (first.text ++ middle)), second.text⟩ := by
    rw [← start']
  have whole : text = (Marked.mk left first.text middle second.text right').text := by
    rw [split', text_eq, List.append_assoc left]
  refine ⟨⟨left, first.text, middle, second.text, right'⟩, whole, firstEq.symm, secondEq.symm, ?_, ?_⟩
  · rw [← whole, firstWord, ← firstEq]
    exact firstMember
  · rw [← whole, secondWord, ← secondEq]
    exact secondMember

theorem Apart.areWords {marked : Marked} (apart : marked.Apart) (firstSome : marked.first ≠ [])
    (firstInked : NoBlank marked.first) (secondSome : marked.second ≠ [])
    (secondInked : NoBlank marked.second) : marked.AreWords := by
  constructor
  · rw [text, words_around apart.firstStarts firstSome firstInked apart.firstEnds]
    exact List.mem_append_right _ List.mem_cons_self
  · have starts : StartsWord (marked.left ++ (marked.first ++ marked.middle)) := by
      rw [← List.append_assoc]
      exact apart.secondStarts.append apart.between
    rw [text_eq, words_around starts secondSome secondInked apart.secondEnds]
    exact List.mem_append_right _ List.mem_cons_self

theorem Apart.retype {marked : Marked} (apart : marked.Apart) (first second : List Char) :
    (marked.retype first second).Apart where
  firstStarts := apart.firstStarts
  firstEnds := apart.firstEnds.append_congr apart.between _
  between := apart.between
  secondStarts := apart.secondStarts
  secondEnds := apart.secondEnds

/-- The marked words stand outside of quotation marks. -/
structure Outside (marked : Marked) : Prop where
  first : marked.left.count '"' % 2 = 0 ∨ '"' ∉ marked.middle ++ (marked.second ++ marked.right)
  second : (marked.left ++ (marked.first ++ marked.middle)).count '"' % 2 = 0 ∨ '"' ∉ marked.right

theorem Outside.of_counts {marked other : Marked} (outside : other.Outside)
    (left : other.left.count '"' = marked.left.count '"')
    (first : other.first.count '"' = marked.first.count '"')
    (middle : other.middle.count '"' = marked.middle.count '"')
    (second : other.second.count '"' = marked.second.count '"')
    (right : other.right.count '"' = marked.right.count '"') : marked.Outside := by
  rcases outside with ⟨outsideFirst, outsideSecond⟩
  simp only [← List.count_eq_zero, List.count_append, left, first, middle, second, right]
    at outsideFirst outsideSecond
  constructor
  · rw [← List.count_eq_zero, List.count_append, List.count_append]
    exact outsideFirst
  · rw [← List.count_eq_zero, List.count_append, List.count_append]
    exact outsideSecond

/-- The text without blanks at its ends, with the same words marked. -/
def trimmed (marked : Marked) : Marked :=
  { marked with left := marked.left.dropWhile isBlank, right := trimEnd marked.right }

theorem trim_text {marked : Marked} (firstSome : marked.first ≠ [])
    (firstInked : NoBlank marked.first) (secondSome : marked.second ≠ [])
    (secondInked : NoBlank marked.second) : trim marked.text = marked.trimmed.text := by
  rw [text_eq, trim_around secondInked secondSome, dropWhile_around firstInked firstSome, text_eq]
  rfl

theorem Apart.trimmed {marked : Marked} (apart : marked.Apart) : marked.trimmed.Apart where
  firstStarts := apart.firstStarts.dropWhile
  firstEnds := apart.firstEnds.append_congr apart.between _
  between := apart.between
  secondStarts := apart.secondStarts
  secondEnds := apart.secondEnds.trimEnd

theorem Outside.of_trimmed {marked : Marked} (outside : marked.trimmed.Outside) : marked.Outside :=
  outside.of_counts (count_quote_dropWhile _) rfl rfl rfl (count_quote_trimEnd _)

end Marked

end SearchCommands
