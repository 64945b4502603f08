import SearchCommands.Proofs.Grammar.Spacing
import SearchCommands.Proofs.Search.Isolation

/-!
# Spacing in commands

The criteria leave a respaced text to the search, and blanks at the ends of that text do not matter
either.  So a command can be spaced in any way (`Search.spacing_insignificant`).
-/

namespace SearchCommands

open Text Beatmap

theorem Beatmap.Criteria.read_spacing {input input' : String} (same : EqualUpToBlanks input input') :
    ResultsAlike (Failure.Alike EqualUpToBlanks) (Outcome.Alike Eq EqualUpToBlanks)
      (Criteria.read input) (Criteria.read input') :=
  Criteria.isPlain.isQuoteFree.fill_spacing Search.criteria_hasBuiltInRules _ _ same

namespace Search

theorem read_spacing {input input' : String} (same : EqualUpToBlanks input input') :
    ResultsAlike (Failure.Alike EqualUpToBlanks) (Outcome.Alike Eq EqualUpToBlanks)
      (read input) (read input') := by
  rw [read_eq, read_eq]
  have criteria := Criteria.read_spacing same
  generalize Criteria.read input = result, Criteria.read input' = result' at criteria
  cases criteria with
  | failed alike => exact .failed alike
  | done alike =>
      simp only [alike.value]
      exact isPlain.isQuoteFree.fill_spacing hasBuiltInRules _ _ alike.leftover

theorem read_trim (input : String) : read (String.ofList (trim input.toList)) = read input := by
  have criteria : Criteria.read (String.ofList (trim input.toList)) = Criteria.read input :=
    Criteria.isPlain.isQuoteFree.fill_trim criteria_hasBuiltInRules (Measure.all.map Measure.setter)
      Criteria.empty input
  rw [read_eq, read_eq, criteria]

/-- Blanks outside of quotation marks separate words and do nothing else, in searches as in every
grammar with built-in rules and without quotation marks in aliases: the captures have the same
fields and values in the same order, the verdict is the same, and leftovers differ in their blanks
alone.  A command can be trimmed without any difference. -/
theorem spacing_insignificant :
    (∀ grammar : Grammar, grammar.IsQuoteFree → grammar.HasBuiltInRules →
      ∀ input input', EqualUpToBlanks input input' →
        (grammar.captures input).map Capture.entry = (grammar.captures input').map Capture.entry ∧
        ResultsAlike (Failure.Alike EqualUpToBlanks)
          (Reading.Alike Eq (fun capture capture' => capture.entry = capture'.entry)
            EqualUpToBlanks)
          (grammar.read input) (grammar.read input')) ∧
    (∀ input input', EqualUpToBlanks input input' →
      ResultsAlike (Failure.Alike EqualUpToBlanks) (Outcome.Alike Eq EqualUpToBlanks)
        (read input) (read input')) ∧
    ∀ input, read (String.ofList (trim input.toList)) = read input := by
  refine ⟨?_, fun input input' => read_spacing, read_trim⟩
  intro grammar quoteFree builtIn input input' same
  exact ⟨(quoteFree.captures_spacing same).1, quoteFree.read_spacing builtIn same⟩

theorem spacing_of_freedom :
    EqualUpToBlanks " mrekk -q  \"Freedom  Dive\" cs>4" "mrekk\t-q \"Freedom  Dive\"\n\u00a0cs>4 " ∧
      (grammar.captures " mrekk -q  \"Freedom  Dive\" cs>4").map Capture.entry =
        (grammar.captures "mrekk\t-q \"Freedom  Dive\"\n\u00a0cs>4 ").map Capture.entry ∧
      ResultsAlike (Failure.Alike EqualUpToBlanks) (Outcome.Alike Eq EqualUpToBlanks)
        (read " mrekk -q  \"Freedom  Dive\" cs>4")
        (read "mrekk\t-q \"Freedom  Dive\"\n\u00a0cs>4 ") := by
  have same : EqualUpToBlanks " mrekk -q  \"Freedom  Dive\" cs>4"
      "mrekk\t-q \"Freedom  Dive\"\n\u00a0cs>4 " := by
    have spaced : trim " mrekk -q  \"Freedom  Dive\" cs>4".toList = "mrekk".toList ++ ([' '] ++
        ("-q".toList ++ ([' ', ' '] ++ (enclosed "Freedom  Dive".toList ++ ([' '] ++
          ("cs>4".toList ++ [])))))) := by decide
    have spaced' : trim "mrekk\t-q \"Freedom  Dive\"\n\u00a0cs>4 ".toList = "mrekk".toList ++
        (['\t'] ++ ("-q".toList ++ ([' '] ++ (enclosed "Freedom  Dive".toList ++
          (['\n', '\u00a0'] ++ ("cs>4".toList ++ [])))))) := by decide
    rw [EqualUpToBlanks, spaced, spaced']
    have word {text text' : List Char} := @Respaced.append_word (fun _ _ => True) text text'
    refine word (by decide) (by decide) (.gap (by decide) (by decide) (by decide) (by decide)
      trivial (by decide) (by decide) ?_)
    refine word (by decide) (by decide) (.gap (by decide) (by decide) (by decide) (by decide)
      trivial (by decide) (by decide) ?_)
    refine .pair (by decide) (.gap (by decide) (by decide) (by decide) (by decide)
      trivial (by decide) (by decide) ?_)
    exact word (by decide) (by decide) (.ends .nil .nil)
  exact ⟨same, (spacing_insignificant.1 _ isPlain.isQuoteFree hasBuiltInRules _ _ same).1,
    spacing_insignificant.2.1 _ _ same⟩

end Search

end SearchCommands
