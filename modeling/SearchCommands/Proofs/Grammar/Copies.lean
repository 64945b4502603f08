import SearchCommands.Proofs.Grammar.Leftover
import SearchCommands.Proofs.Text.Marked

/-!
# Where the words of a leftover come from

The leftover has the words that no capture covers, one by one and in their order, so each of these
has its copy there.  If a scan leaves a word over, the copy of the word stands behind what the scan
left before it (`Grammar.copy_eq`).
-/

namespace SearchCommands

open Text

/-- In two lists that are split at the same place, what stands there goes together. -/
theorem eq_of_mem_zip {α β : Type} {before after : List α} {before' after' : List β} {own : α}
    {other other' : β} (same : before.length = before'.length) (notBefore : own ∉ before)
    (notAfter : own ∉ after)
    (member : (own, other) ∈ (before ++ own :: after).zip (before' ++ other' :: after')) :
    other = other' := by
  rw [List.zip_append same, List.zip_cons_cons, List.mem_append, List.mem_cons] at member
  rcases member with member | pair | member
  · exact absurd (List.of_mem_zip member).1 notBefore
  · exact (Prod.mk.inj pair).2
  · exact absurd (List.of_mem_zip member).1 notAfter

namespace Grammar

variable {grammar : Grammar} {input : String}

/-- The words that no capture covers, with their copies in the leftover. -/
def copies (grammar : Grammar) (input : String) : List (Placed × Placed) :=
  ((grammar.captures input).uncovered (words input.toList)).zip
    (words (grammar.leftover input).toList)

/-- A copy is the same word. -/
theorem text_eq_of_mem_copies {word copy : Placed} (member : (word, copy) ∈ grammar.copies input) :
    word.text = copy.text := by
  have same := grammar.texts_words_leftover input
  rw [copies] at member
  generalize (grammar.captures input).uncovered (words input.toList) = own,
    words (grammar.leftover input).toList = copied at same member
  rcases List.getElem_of_mem member with ⟨place, bound, pair⟩
  rw [List.length_zip] at bound
  rw [List.getElem_zip, Prod.mk.injEq] at pair
  rw [← pair.1, ← pair.2, ← List.getElem_map Placed.text, ← List.getElem_map Placed.text]
  · simp only [same]
  all_goals
    rw [List.length_map]
    omega

/-- Captures that stop before a place do not matter for the words behind it. -/
theorem uncovered_partsFrom {front back : List Token} {place : Nat}
    (stops : ∀ token ∈ front, token.capture.stop ≤ place) (text : List Char) :
    Captures.uncovered ((front ++ back).map Token.capture) (PartKind.word.partsFrom place text) =
      Captures.uncovered (back.map Token.capture) (PartKind.word.partsFrom place text) := by
  apply List.filter_congr
  intro part member
  rcases PartKind.mem_partsFrom member with ⟨start, nonempty, _⟩
  have nothing : Captures.cover (front.map Token.capture) part = false := by
    apply Captures.cover_eq_false _ nonempty
    intro capture captured
    rcases List.mem_map.mp captured with ⟨token, tokenMember, rfl⟩
    exact Or.inr ((stops token tokenMember).trans start)
  rw [Captures.cover] at nothing
  rw [Captures.cover, Captures.cover, List.map_append, List.any_append, nothing, Bool.false_or]

/-- Behind the tokens that come first, the leftover has as many words as no capture covers. -/
theorem length_uncovered_behind {right before : List Char} {front back : List Token}
    (split : grammar.tokens input = front ++ back)
    (stops : ∀ token ∈ front, byteLength token.stop.before ≤ byteLength before)
    (scans : grammar.Scans ⟨before, right⟩ back) (offset : Nat) :
    (Captures.uncovered (grammar.captures input)
        (PartKind.word.partsFrom (byteLength before) right)).length =
      (PartKind.word.partsFrom offset (trimEnd (Token.uncovered ⟨before, right⟩ back))).length := by
  have texts := congrArg List.length scans.spares_words.texts_uncovered
  rw [List.length_map, List.length_map] at texts
  rw [length_words_trimEnd _ offset 0, captures, split, uncovered_partsFrom stops]
  exact texts

/-- The copy of a word that is left over stands behind what is left over before it. -/
theorem copy_eq {left word right lead before : List Char} {front back : List Token}
    (text : input.toList = left ++ (word ++ right))
    (listed : ⟨byteLength left, word⟩ ∈ words (left ++ (word ++ right)))
    (split : grammar.tokens input = front ++ back)
    (stops : ∀ token ∈ front, byteLength token.stop.before ≤ byteLength before)
    (place : byteLength before = byteLength left + byteLength word)
    (scans : grammar.Scans ⟨before, right⟩ back)
    (uncovered : Token.uncovered (Cursor.ofText input.toList) (grammar.tokens input) =
      lead ++ (word ++ Token.uncovered ⟨before, right⟩ back))
    (leadStarts : StartsWord lead) {copy : Placed}
    (member : (⟨byteLength left, word⟩, copy) ∈ grammar.copies input) :
    copy = ⟨byteLength (lead.dropWhile isBlank), word⟩ := by
  rcases split_of_mem_words listed with ⟨starts, some, inked, ends⟩
  have leftover : (grammar.leftover input).toList = lead.dropWhile isBlank ++
      (word ++ trimEnd (Token.uncovered ⟨before, right⟩ back)) := by
    rw [Grammar.leftover, String.toList_ofList, uncovered, trim_around inked some]
  have own := words_around starts some inked ends
  have copied := words_around leadStarts.dropWhile some inked (scans.endsWord_uncovered ends).trimEnd
  have later := length_uncovered_behind split stops scans
    (byteLength (lead.dropWhile isBlank) + byteLength word)
  rw [place] at later
  have all := congrArg List.length (grammar.texts_words_leftover input)
  rw [List.length_map, List.length_map] at all
  have passed : Captures.uncovered (grammar.captures input) (words input.toList) =
      Captures.uncovered (grammar.captures input) (words left) ++ ⟨byteLength left, word⟩ ::
        Captures.uncovered (grammar.captures input)
          (PartKind.word.partsFrom (byteLength left + byteLength word) right) := by
    have kept := (List.mem_filter.mp (List.of_mem_zip member).1).2
    rw [text, own, Captures.uncovered_append]
    exact congrArg _ (List.filter_cons_of_pos kept)
  rw [leftover, copied, passed] at all
  rw [copies, leftover, copied, passed] at member
  simp only [List.length_append, List.length_cons, later] at all
  refine eq_of_mem_zip (by omega) ?_ ?_ member
  · intro listed
    rcases PartKind.mem_partsFrom (List.mem_of_mem_filter listed) with ⟨_, _, stop⟩
    have length := byteLength_pos some
    simp only [Placed.stop] at stop
    omega
  · intro listed
    rcases PartKind.mem_partsFrom (List.mem_of_mem_filter listed) with ⟨start, _, _⟩
    have length := byteLength_pos some
    simp only at start
    omega

/-- Words of the leftover are copies of words that stand in the same order. -/
theorem exists_originals {first second : Placed}
    (firstMember : first ∈ words (grammar.leftover input).toList)
    (secondMember : second ∈ words (grammar.leftover input).toList)
    (order : first.stop ≤ second.start) :
    ∃ own ∈ words input.toList, ∃ later ∈ words input.toList, own.stop ≤ later.start ∧
      (own, first) ∈ grammar.copies input ∧ (later, second) ∈ grammar.copies input := by
  have lengths := congrArg List.length (grammar.texts_words_leftover input)
  rw [List.length_map, List.length_map] at lengths
  have ordered : ((grammar.captures input).uncovered (words input.toList)).Pairwise
      fun first second => first.stop ≤ second.start :=
    (words_pairwise input.toList 0).filter _
  have orderedCopies : (words (grammar.leftover input).toList).Pairwise
      fun first second => first.stop ≤ second.start :=
    words_pairwise (grammar.leftover input).toList 0
  rcases List.getElem_of_mem firstMember with ⟨i, iBound, rfl⟩
  rcases List.getElem_of_mem secondMember with ⟨j, jBound, rfl⟩
  have copied (place : Nat) (bound : place < (words (grammar.leftover input).toList).length) :
      (((grammar.captures input).uncovered (words input.toList))[place],
        (words (grammar.leftover input).toList)[place]) ∈ grammar.copies input := by
    have listed := List.getElem_mem (l := grammar.copies input) (n := place)
      (by simp only [copies, List.length_zip]; omega)
    simpa only [copies, List.getElem_zip] using listed
  have forwards : i < j := by
    have length {place : Nat} (bound : place < (words (grammar.leftover input).toList).length) :=
      byteLength_pos (PartKind.mem_partsFrom (List.getElem_mem bound)).2.1
    have ownLength := length iBound
    have laterLength := length jBound
    rcases Nat.lt_trichotomy i j with less | rfl | greater
    · exact less
    · simp only [Placed.stop] at order
      omega
    · have backwards := List.pairwise_iff_getElem.mp orderedCopies j i jBound iBound greater
      simp only [Placed.stop] at order backwards
      omega
  exact ⟨_, List.mem_of_mem_filter (List.getElem_mem _), _,
    List.mem_of_mem_filter (List.getElem_mem _),
    List.pairwise_iff_getElem.mp ordered i j (by omega) (by omega) forwards, copied i iBound,
    copied j jBound⟩

end Grammar

end SearchCommands
