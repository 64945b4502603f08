import SearchCommands.Proofs.Grammar.Isolation
import SearchCommands.Proofs.Grammar.Leftover
import SearchCommands.Proofs.Search.Words

/-!
# What a search leaves over

The words of the leftover are the words that nothing captured, and so are the texts in quotation
marks.  A search reads its input in two phases: the second one reads what the first one left over,
so a word of the input is looked for in the words of that text, in which it stands at another place.
-/

namespace SearchCommands.Search

open Text Beatmap

/-- The words of an input that neither phase captures.  The criteria leave over the words that they
do not capture, one by one, so each of these has its copy in what the second phase reads. -/
def unread (input : String) : List Placed :=
  let rest := Criteria.grammar.leftover input
  let passed := (Criteria.grammar.captures input).uncovered (words input.toList)
  ((passed.zip (words rest.toList)).filter fun entry =>
    !(grammar.captures rest).cover entry.2).map Prod.fst

/-- Choosing words by their copies chooses the same texts. -/
theorem texts_filter_zip (chosen : Placed → Bool) {own copies : List Placed}
    (same : own.map Placed.text = copies.map Placed.text) :
    (((own.zip copies).filter fun entry => chosen entry.2).map Prod.fst).map Placed.text =
      (copies.filter chosen).map Placed.text := by
  induction own generalizing copies with
  | nil =>
      rw [List.map_nil, eq_comm, List.map_eq_nil_iff] at same
      subst same
      rfl
  | cons word rest ih =>
      cases copies with
      | nil => cases same
      | cons copy more =>
          rw [List.map_cons, List.map_cons, List.cons.injEq] at same
          rw [List.zip_cons_cons, List.filter_cons, List.filter_cons]
          cases chosen copy with
          | false => exact ih same.2
          | true =>
              simp only [if_true, List.map_cons]
              rw [same.1, ih same.2]

theorem unread_sublist (input : String) : (unread input).Sublist (words input.toList) := by
  have copies := congrArg List.length (Criteria.grammar.texts_words_leftover input)
  rw [List.length_map, List.length_map] at copies
  have passed := List.map_fst_zip (Nat.le_of_eq copies.symm)
  have chosen : (unread input).Sublist
      ((Criteria.grammar.captures input).uncovered (words input.toList)) := by
    rw [← passed]
    exact List.filter_sublist.map Prod.fst
  exact chosen.trans List.filter_sublist

/-- If a search can be read, its leftover has the words that neither phase captured. -/
theorem texts_unread {input : String} {outcome : Outcome Search}
    (done : read input = .ok outcome) :
    (words outcome.leftover.toList).map Placed.text = (unread input).map Placed.text := by
  rcases read_eq_ok_iff.mp done with ⟨criteria, criteriaRead, _, filter, _, rfl⟩
  rcases Criteria.read_eq_ok_iff.mp criteriaRead with ⟨_, _, rest⟩
  have copies := Criteria.grammar.texts_words_leftover input
  have chosen := texts_filter_zip (fun copy =>
    !(grammar.captures (Criteria.grammar.leftover input)).cover copy) copies.symm
  rw [rest]
  exact (grammar.texts_words_leftover _).trans chosen.symm

/-- What is left over is what no capture covers, word by word.  Every capture covers whole words,
and reading an input leaves the words over that no capture covers, whether it succeeds or not.  A
search that can be read leaves the words over that neither phase captured. -/
theorem leftover_words :
    (∀ (grammar : Grammar) (input : String),
      (∀ capture ∈ grammar.captures input,
        (∃ left own right, capture.Divides input.toList left own right ∧
          (left = [] ∨ own.head?.any isBlank = true) ∧ EndsWord right) ∧
        ∀ word ∈ words input.toList, capture.covers word = true ∨ capture.IsApart word) ∧
      (∀ reading, grammar.read input = .ok reading → reading.captures = grammar.captures input ∧
        (words reading.leftover.toList).map Placed.text =
          ((grammar.captures input).uncovered (words input.toList)).map Placed.text) ∧
      ∀ failure, grammar.read input = .error failure →
        (words failure.leftover.toList).map Placed.text =
          ((grammar.captures input).uncovered (words input.toList)).map Placed.text) ∧
    ∀ (input : String) (outcome : Outcome Search), read input = .ok outcome →
      (unread input).Sublist (words input.toList) ∧
        (words outcome.leftover.toList).map Placed.text = (unread input).map Placed.text := by
  refine ⟨fun grammar input => ⟨?_, ?_, ?_⟩, ?_⟩
  · intro capture member
    exact ⟨Grammar.divides_words member, fun word => Grammar.covers_or_isApart_word member⟩
  · intro reading done
    rcases Grammar.read_eq_ok_iff.mp done with ⟨_, rfl⟩
    exact ⟨rfl, grammar.texts_words_leftover input⟩
  · intro failure refused
    rw [Grammar.leftover_of_error refused]
    exact grammar.texts_words_leftover input
  · intro input outcome done
    exact ⟨unread_sublist input, texts_unread done⟩

/-- A text in quotation marks is left over in the words that it touches; after a failure, too. -/
theorem leftover_words_mrekk :
    (∃ failure, grammar.read "mrekk  -e x -e" = .error failure ∧
      (words failure.leftover.toList).map Placed.text = ["x".toList]) ∧
    ∃ outcome, read "mrekk ar>9 a\"b c\" -t \"big black\" x" = .ok outcome ∧
      (words outcome.leftover.toList).map Placed.text =
        ["a\"b".toList, "c\"".toList, "x".toList] := by
  constructor
  · cases refused : grammar.read "mrekk  -e x -e" with
    | ok reading =>
        have failed : (grammar.read "mrekk  -e x -e").isOk = false := by decide +kernel
        rw [refused] at failed
        cases failed
    | error failure =>
        refine ⟨failure, rfl, ?_⟩
        rw [(leftover_words.1 grammar "mrekk  -e x -e").2.2 failure refused]
        decide +kernel
  · have succeeded : (read "mrekk ar>9 a\"b c\" -t \"big black\" x").isOk = true := by
      decide +kernel
    rcases exists_of_isOk succeeded with ⟨outcome, done⟩
    refine ⟨outcome, done, ?_⟩
    rw [(leftover_words.2 _ outcome done).2]
    decide +kernel

/-- What the criteria leave over has the texts in quotation marks of the input, as they are, and a
mark without a partner if the input has one. -/
theorem quotes_criteria (input : String) :
    (quotedTexts (Criteria.grammar.leftover input).toList).map Placed.text =
        (quotedTexts input.toList).map Placed.text ∧
      (Criteria.grammar.leftover input).toList.count '"' = input.toList.count '"' := by
  apply Grammar.quotes_leftover Criteria.isPlain.isQuoteFree
  intro field member quotable text
  rcases Criteria.exists_measure member with ⟨measure, rfl⟩
  cases text

/-- Texts in quotation marks are taken whole or not at all.  If no alias has a quotation mark in it,
each of them stands in a single capture or has nothing in common with any; a capture covers no mark,
or one such text and no other mark; and the leftover has those that no capture covers.  Criteria
cover none, so the second phase of a search finds all of them. -/
theorem quoted_texts_whole :
    (∀ grammar : Grammar, grammar.IsQuoteFree → ∀ input : String,
      (∀ pair ∈ quotedTexts input.toList,
        (∃ before capture after, grammar.captures input = before ++ capture :: after ∧
            capture.covers pair = true ∧ ∀ other ∈ before ++ after, other.IsApart pair) ∨
          ∀ capture ∈ grammar.captures input, capture.IsApart pair) ∧
      (∀ capture ∈ grammar.captures input,
        ∃ left own right, capture.Divides input.toList left own right ∧
          ('"' ∉ own ∨ own.count '"' = 2 ∧
            ∃ pair, (quotedTexts input.toList).filter capture.covers = [pair])) ∧
      (quotedTexts (grammar.leftover input).toList).map Placed.text =
        ((grammar.captures input).uncovered (quotedTexts input.toList)).map Placed.text) ∧
    ∀ input : String,
      ((quotedTexts (Criteria.grammar.leftover input).toList).map Placed.text =
          (quotedTexts input.toList).map Placed.text ∧
        (Criteria.grammar.leftover input).toList.count '"' = input.toList.count '"') ∧
      ∀ criteria, Criteria.read input = .ok criteria →
        criteria.leftover = Criteria.grammar.leftover input := by
  refine ⟨fun grammar quoteFree input => ⟨?_, ?_, ?_⟩, ?_⟩
  · intro pair member
    exact Grammar.quotedText_whole quoteFree member
  · intro capture member
    exact (Grammar.divides_quotedTexts quoteFree member).2
  · exact Grammar.texts_quotedTexts_leftover quoteFree input
  · intro input
    exact ⟨quotes_criteria input, fun criteria done => (Criteria.read_eq_ok_iff.mp done).2.2⟩

/-- A pair of marks that starts inside a word is left over, and so is a mark without a partner. -/
theorem quoted_texts_mrekk :
    (quotedTexts (grammar.leftover "mrekk a\"b -e c\" -t \"big black\" \"").toList).map
        Placed.text = ["\"b -e c\"".toList] ∧
      ∃ criteria, Criteria.read "\"mrekk\" ar>9 a\"b ar>9 c\" cs<4 \"" = .ok criteria ∧
        (quotedTexts criteria.leftover.toList).map Placed.text =
          ["\"mrekk\"".toList, "\"b ar>9 c\"".toList] := by
  constructor
  · rw [(quoted_texts_whole.1 grammar isPlain.isQuoteFree _).2.2]
    decide +kernel
  · have succeeded : (Criteria.read "\"mrekk\" ar>9 a\"b ar>9 c\" cs<4 \"").isOk = true := by
      decide +kernel
    rcases exists_of_isOk succeeded with ⟨criteria, done⟩
    refine ⟨criteria, done, ?_⟩
    rcases quoted_texts_whole.2 "\"mrekk\" ar>9 a\"b ar>9 c\" cs<4 \"" with ⟨same, rest⟩
    rw [rest criteria done, same.1]
    decide +kernel

end SearchCommands.Search
