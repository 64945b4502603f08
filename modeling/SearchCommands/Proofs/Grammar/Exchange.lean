import SearchCommands.Proofs.Grammar.Copies
import SearchCommands.Proofs.Grammar.Crossing
import SearchCommands.Proofs.Grammar.Spacing
import SearchCommands.Proofs.Grammar.Taken
import SearchCommands.Proofs.Text.Marked

/-!
# Typing two other words

Two words of a text are typed anew, in place of words that a plain grammar takes alike.  Everything
else that is captured stays, in field and value and order, and so does everything else that is left.
The two words can be words of one number that captures them (`Grammar.IsPlain.retype_captured`), or
words that mean nothing to a grammar without texts (`Grammar.IsPlain.retype_passed`).
-/

namespace SearchCommands

open Text FieldPattern

namespace Marked

/-- The place behind the second word. -/
def behind (marked : Marked) : Cursor :=
  ⟨marked.second.reverse ++ (marked.middle.reverse ++
    (marked.first.reverse ++ (marked.left.reverse ++ []))), marked.right⟩

/-- The two words in what a scan leaves over, with what it leaves before, between and behind them. -/
def leftOver (marked : Marked) (lead gap : List Char) (rest : List Token) : Marked :=
  { marked with left := lead, middle := gap, right := Token.uncovered marked.behind rest }

end Marked

namespace Captures

/-- The field has other values, and all other fields have the same values, in the same order. -/
structure DifferIn (field : String) (values values' : List FieldValue)
    (captures captures' : Captures) : Prop where
  values : captures.valuesOf field = values
  values' : captures'.valuesOf field = values'
  others : ∀ name, name ≠ field → captures.valuesOf name = captures'.valuesOf name
  fields : captures.map Capture.field = captures'.map Capture.field

section Entries

variable {captures : Captures} {field : String} {value later : FieldValue}
  {before between behind : List (String × FieldValue)}
  (entries : captures.map Capture.entry =
    before ++ ([(field, value)] ++ (between ++ ([(field, later)] ++ behind))))

include entries

theorem fields_of_entries : captures.map Capture.field =
    before.map Prod.fst ++ field :: (between.map Prod.fst ++ field :: behind.map Prod.fst) := by
  have names := congrArg (List.map Prod.fst) entries
  rw [List.map_map] at names
  exact names.trans (by simp)

theorem valuesOf_of_entries : captures.valuesOf field =
    (before.filter fun entry => entry.1 == field).map Prod.snd ++
      value :: ((between.filter fun entry => entry.1 == field).map Prod.snd ++
        later :: (behind.filter fun entry => entry.1 == field).map Prod.snd) := by
  simp [valuesOf_eq, entries, List.filter_append]

/-- Two entries of a field that is captured twice are all that it has. -/
theorem no_other_entry (twice : captures.countOf field = 2) :
    (before.filter fun entry => entry.1 == field).map Prod.snd = [] ∧
      (between.filter fun entry => entry.1 == field).map Prod.snd = [] ∧
      (behind.filter fun entry => entry.1 == field).map Prod.snd = [] := by
  have length := congrArg List.length (valuesOf_of_entries entries)
  rw [length_valuesOf, twice, List.length_append, List.length_cons, List.length_append,
    List.length_cons] at length
  refine ⟨List.eq_nil_of_length_eq_zero ?_, List.eq_nil_of_length_eq_zero ?_,
    List.eq_nil_of_length_eq_zero ?_⟩
  all_goals omega

end Entries

/-- Of a field that is captured twice, both captures have other values. -/
theorem differIn_of_entries {captures captures' : Captures} {field : String}
    (twice : captures.countOf field = 2) {before between behind : List (String × FieldValue)}
    {value later value' later' : FieldValue}
    (entries : captures.map Capture.entry =
      before ++ ([(field, value)] ++ (between ++ ([(field, later)] ++ behind))))
    (entries' : captures'.map Capture.entry =
      before ++ ([(field, value')] ++ (between ++ ([(field, later')] ++ behind)))) :
    DifferIn field [value, later] [value', later'] captures captures' := by
  rcases no_other_entry entries twice with ⟨noneBefore, noneBetween, noneBehind⟩
  have own := valuesOf_of_entries entries
  have own' := valuesOf_of_entries entries'
  rw [noneBefore, noneBetween, noneBehind] at own own'
  refine ⟨own, own', ?_, ?_⟩
  · intro name different
    have apart : (field == name) = false := by simpa using Ne.symm different
    simp [valuesOf_eq, entries, entries', List.filter_append, apart]
  · rw [fields_of_entries entries, fields_of_entries entries']

end Captures

namespace Grammar

variable {grammar : Grammar} {marked : Marked} {first' second' : List Char}
  {own own' later later' : List (String × FieldValue)} {kept kept' keptLater keptLater' : List Char}

/-- A scan crosses the two marked words, and likewise the words that are typed in their places. -/
structure CrossesBoth (grammar : Grammar) (marked : Marked) (first' second' : List Char)
    (own own' later later' : List (String × FieldValue))
    (kept kept' keptLater keptLater' : List Char) (tokens : List Token)
    (entries between : List (String × FieldValue)) (lead gap : List Char) (back rest : List Token) :
    Prop where
  first : grammar.CrossesWord marked.first (marked.middle ++ (marked.second ++ marked.right)) []
    first' (marked.middle ++ (second' ++ marked.right)) [] marked.left own own' kept kept' tokens
    entries lead back
  second : grammar.CrossesWord marked.second marked.right
    (marked.first.reverse ++ (marked.left.reverse ++ [])) second' marked.right
    (first'.reverse ++ (marked.left.reverse ++ [])) marked.middle later later' keptLater keptLater'
    back between gap rest

namespace CrossesBoth

variable {tokens : List Token} {entries between : List (String × FieldValue)} {lead gap : List Char}
  {back rest : List Token}
  (crosses : grammar.CrossesBoth marked first' second' own own' later later' kept kept' keptLater
    keptLater' tokens entries between lead gap back rest)

include crosses

theorem entries_eq :
    tokens.map Token.entry = entries ++ (own ++ (between ++ (later ++ rest.map Token.entry))) := by
  rw [crosses.first.entries_eq, crosses.second.entries_eq]

theorem uncovered_eq : Token.uncovered ⟨[], marked.text⟩ tokens =
    lead ++ (kept ++ (gap ++ (keptLater ++ Token.uncovered marked.behind rest))) :=
  crosses.first.uncovered_eq.trans (by rw [crosses.second.uncovered_eq]; rfl)

end CrossesBoth

/-- The marked words are not read as texts. -/
def Unread (grammar : Grammar) (marked : Marked) (tokens : List Token) : Prop :=
  ∀ token ∈ tokens, (token.stop.after = marked.middle ++ (marked.second ++ marked.right) ∨
      token.stop.after = marked.right) → ∀ field ∈ grammar.fields, token.field = field.name →
    ∀ quotable, field.kind ≠ .text quotable

section Crossing

variable (bare : BareWord marked.first) (bare' : BareWord first')
  (bareLater : BareWord marked.second) (bareLater' : BareWord second')

include bare bare' bareLater bareLater'

/-- A scan crosses two words that the grammar takes alike with those that are typed in their places,
one after the other. -/
theorem IsPlain.exists_crossesBoth (plain : grammar.IsPlain)
    (takes : grammar.TakesAlike marked.first first' own own' kept kept')
    (takesLater : grammar.TakesAlike marked.second second' later later' keptLater keptLater')
    (apart : marked.Apart) (outside : own = [] ∧ later = [] ∨ marked.Outside) {tokens : List Token}
    (scans : grammar.Scans ⟨[], marked.text⟩ tokens) (unread : grammar.Unread marked tokens) :
    ∃ entries between lead gap back rest, grammar.CrossesBoth marked first' second' own own' later
      later' kept kept' keptLater keptLater' tokens entries between lead gap back rest := by
  have marks : '"' ∈ marked.middle ++ (marked.second ++ marked.right) ↔
      '"' ∈ marked.middle ++ (second' ++ marked.right) := by
    simp [bareLater.2.2.1, bareLater'.2.2.1]
  rcases plain.exists_crossesWord takes bare bare' apart.firstEnds
    (apart.retype first' second').firstEnds
    marks apart.firstStarts (Or.inl rfl) ⟨Iff.rfl, rfl⟩
    (outside.imp And.left fun outside => by simpa using outside.first) scans
    (fun token member stop => unread token member (Or.inl stop)) with
    ⟨entries, lead, back, crosses⟩
  have same : SameSide (marked.first.reverse ++ (marked.left.reverse ++ []))
      (first'.reverse ++ (marked.left.reverse ++ [])) := by
    constructor
    · simp [bare.1, bare'.1]
    · simp [List.count_eq_zero.mpr bare.2.2.1, List.count_eq_zero.mpr bare'.2.2.1]
  have behind : later = [] ∨
      (marked.middle.reverse ++ (marked.first.reverse ++ (marked.left.reverse ++ []))).count
        '"' % 2 = 0 ∨ '"' ∉ marked.right := by
    refine outside.imp And.right fun outside => ?_
    have outside := outside.second
    simp only [List.count_append, List.count_reverse, List.count_nil] at outside ⊢
    refine outside.imp_left fun even => ?_
    omega
  have unreadLater : ∀ token ∈ back, token.stop.after = marked.right → ∀ field ∈ grammar.fields,
      token.field = field.name → ∀ quotable, field.kind ≠ .text quotable := by
    rcases crosses.front with ⟨front, rfl, _⟩
    intro token member stop
    exact unread token (List.mem_append_right front member) (Or.inr stop)
  rcases plain.exists_crossesWord takesLater bareLater bareLater' apart.secondEnds apart.secondEnds
    Iff.rfl apart.secondStarts (Or.inr (Or.inl apart.between)) same behind crosses.scans
    unreadLater with
    ⟨between, gap, rest, crossesLater⟩
  exact ⟨entries, between, lead, gap, back, rest, crosses, crossesLater⟩

/-- A scan of the retyped text finds and leaves the same around the two words, up to blanks at the
end of what it leaves. -/
theorem CrossesBoth.retyped (quoteFree : grammar.IsQuoteFree) (outside : marked.Outside)
    {tokens : List Token}
    {entries between : List (String × FieldValue)} {lead gap : List Char} {back rest : List Token}
    (crosses : grammar.CrossesBoth marked first' second' own own' later later' kept kept' keptLater
      keptLater' tokens entries between lead gap back rest) :
    ∃ tokens' tail', grammar.Scans ⟨[], (marked.retype first' second').text⟩ tokens' ∧
      tokens'.map Token.entry =
        entries ++ (own' ++ (between ++ (later' ++ rest.map Token.entry))) ∧
      Token.uncovered ⟨[], (marked.retype first' second').text⟩ tokens' =
        lead ++ (kept' ++ (gap ++ (keptLater' ++ tail'))) ∧
      Respaced Eq (Token.uncovered marked.behind rest) tail' := by
  have inStep : InStep Eq marked.behind (marked.retype first' second').behind := by
    have outsideBehind {first second : List Char} (plain : '"' ∉ first) (plainLater : '"' ∉ second) :
        (marked.retype first second).behind.insideQuotes = false := by
      have outside := outside.second
      rw [Cursor.insideQuotes_eq_false_iff]
      simp only [Marked.behind, Marked.retype, List.count_append, List.count_reverse, List.count_nil,
        List.count_eq_zero.mpr plain, List.count_eq_zero.mpr plainLater,
        List.count_eq_zero.mpr bare.2.2.1] at outside ⊢
      refine outside.imp_left fun even => ?_
      omega
    exact ⟨by simp [Marked.behind, bareLater.1], by simp [Marked.behind, Marked.retype, bareLater'.1],
      outsideBehind bare.2.2.1 bareLater.2.2.1, outsideBehind bare'.2.2.1 bareLater'.2.2.1,
      .refl (fun _ => rfl) _⟩
  rcases quoteFree.scansAlike inStep with ⟨rest₀, rest', scans, scans', entriesEq, uncovered⟩
  rcases crosses.second.scans.deterministic scans with rfl
  rcases crosses.second.elsewhere rest' scans' with ⟨back', scansLater, entriesLater, uncoveredLater⟩
  rcases crosses.first.elsewhere back' scansLater with ⟨tokens', scansAll, entriesAll, uncoveredAll⟩
  refine ⟨tokens', _, scansAll, ?_, ?_, uncovered⟩
  · rw [entriesAll, entriesLater, entriesEq]
  · exact uncoveredAll.trans (by rw [uncoveredLater]; rfl)

end Crossing

variable {input input' : String}

/-- The two marked words are what the field takes. -/
structure TakesTwice (grammar : Grammar) (field : String) (input : String) (marked : Marked) :
    Prop where
  text : input.toList = marked.text
  areWords : marked.AreWords
  first : (grammar.captures input).Takes field marked.firstWord
  second : (grammar.captures input).Takes field marked.secondWord
  twice : (grammar.captures input).countOf field = 2

/-- A number that is captured twice takes two words. -/
theorem exists_takesTwice {field : Field} (member : field ∈ grammar.fields)
    (noText : ∀ quotable, field.kind ≠ .text quotable)
    (twice : (grammar.captures input).countOf field.name = 2) :
    ∃ marked, grammar.TakesTwice field.name input marked ∧
      (∃ value, field.Spells marked.first value) ∧ ∃ value, field.Spells marked.second value := by
  rcases exists_words_of_twice member noText twice with
    ⟨first, firstMember, second, secondMember, order, ⟨takes, spells⟩, takesLater, spellsLater⟩
  rcases Marked.exists_marked firstMember secondMember order with ⟨marked, text, rfl, rfl, areWords⟩
  exact ⟨marked, ⟨text, areWords, takes, takesLater, twice⟩, spells, spellsLater⟩

section Captured

variable {field : Field} (member : field ∈ grammar.fields) {signed whole : Bool}
  (kind : field.kind = .number signed whole) (takes : grammar.TakesTwice field.name input marked)

include member kind takes

/-- The tokens of the two words. -/
theorem TakesTwice.exists_tokens :
    marked.Outside ∧ ∃ first ∈ grammar.tokens input, ∃ second ∈ grammar.tokens input,
      first.field = field.name ∧ second.field = field.name ∧
      first.stop.after = marked.middle ++ (marked.second ++ marked.right) ∧
      second.stop.after = marked.right := by
  have noText (quotable : Bool) : field.kind ≠ .text quotable := by simp [kind]
  have listed := takes.areWords.second
  have text := takes.text
  rw [Marked.text_eq] at listed text
  rcases exists_token_of_takes member noText takes.text takes.areWords.first takes.first with
    ⟨first, firstMember, firstName, stop, _, even⟩
  rcases exists_token_of_takes member noText text listed takes.second with
    ⟨second, secondMember, secondName, stopLater, _, evenLater⟩
  exact ⟨⟨even, evenLater⟩, first, firstMember, second, secondMember, firstName, secondName,
    by rw [stop], by rw [stopLater]⟩

/-- The two words are words of a number, so they are not read as texts. -/
theorem TakesTwice.unread : grammar.Unread marked (grammar.tokens input) := by
  rcases takes.exists_tokens member kind with
    ⟨_, first, firstMember, second, secondMember, firstName, secondName, stop, stopLater⟩
  have scans := grammar.scans_tokens input
  intro other otherMember stopEq owner ownerMember ownerName quotable
  have own : other.field = field.name := by
    rcases stopEq with stopEq | stopEq
    · rw [scans.eq_of_stop otherMember firstMember (stopEq.trans stop.symm), firstName]
    · rw [scans.eq_of_stop otherMember secondMember (stopEq.trans stopLater.symm), secondName]
  rw [field_eq_of_name ownerMember member (ownerName.symm.trans own), kind]
  exact FieldKind.noConfusion

/-- With two other words of a number in the places of the two that it takes, the number has the
values of these, and everything else that is captured or left stays. -/
theorem IsPlain.retype_captured (plain : grammar.IsPlain)
    (bare : ∀ {word value}, field.Spells word value → BareWord word)
    (text' : input'.toList = (marked.retype first' second').text)
    {value valueLater value' valueLater' : FieldValue} (spells : field.Spells marked.first value)
    (spellsLater : field.Spells marked.second valueLater) (spells' : field.Spells first' value')
    (spellsLater' : field.Spells second' valueLater') :
    Captures.DifferIn field.name [value, valueLater] [value', valueLater'] (grammar.captures input)
        (grammar.captures input') ∧
      grammar.leftover input = grammar.leftover input' := by
  have scans : grammar.Scans ⟨[], marked.text⟩ (grammar.tokens input) :=
    takes.text ▸ grammar.scans_tokens input
  have outside := (takes.exists_tokens member kind).1
  rcases plain.exists_crossesBoth (bare spells) (bare spells') (bare spellsLater)
    (bare spellsLater') (.captured member kind spells spells')
    (.captured member kind spellsLater spellsLater') takes.areWords.apart (Or.inr outside) scans
    (takes.unread member kind) with
    ⟨entries, between, lead, gap, back, rest, crosses⟩
  rcases crosses.retyped (bare spells) (bare spells') (bare spellsLater) (bare spellsLater')
    plain.isQuoteFree outside with
    ⟨tokens', tail', scans', entriesEq', uncovered', respaced⟩
  rw [← text'] at scans' uncovered'
  have tokensEq' := tokens_eq_iff.mpr scans'
  constructor
  · have entriesEq := crosses.entries_eq
    have captured : (grammar.captures input).map Capture.entry =
        (grammar.tokens input).map Token.entry := by
      rw [captures, List.map_map]
      rfl
    have captured' : (grammar.captures input').map Capture.entry = tokens'.map Token.entry := by
      rw [captures, tokensEq', List.map_map]
      rfl
    exact Captures.differIn_of_entries takes.twice (captured.trans entriesEq)
      (captured'.trans entriesEq')
  · rw [leftover_of_scans scans', leftover, Cursor.ofText, Cursor.ofText, takes.text,
      crosses.uncovered_eq, uncovered']
    generalize Token.uncovered marked.behind rest = tail at respaced ⊢
    rcases respaced.exists_ends with ⟨core, blanks, blanks', rfl, rfl, blank, blank'⟩
    have core {tail : List Char} (blank : AllBlank tail) :
        trim (lead ++ ([] ++ (gap ++ ([] ++ (core ++ tail))))) = trim (lead ++ (gap ++ core)) := by
      rw [List.nil_append, List.nil_append, ← List.append_assoc gap, ← List.append_assoc lead,
        trim_append_blanks blank]
    rw [core blank, core blank']

end Captured

/-- The marked words are left over, and the leftover is another text in which they are marked. -/
structure Leaves (grammar : Grammar) (input : String) (marked rest : Marked) : Prop where
  first : rest.first = marked.first
  second : rest.second = marked.second
  text : (grammar.leftover input).toList = rest.text
  areWords : rest.AreWords
  firstCopy : ∀ copy, (marked.firstWord, copy) ∈ grammar.copies input → copy = rest.firstWord
  secondCopy : ∀ copy, (marked.secondWord, copy) ∈ grammar.copies input → copy = rest.secondWord

section Leaving

variable {entries between : List (String × FieldValue)} {lead gap : List Char}
  {back rest : List Token} (bare : BareWord marked.first) (bareLater : BareWord marked.second)
  (areWords : marked.AreWords)
  (crosses : grammar.CrossesBoth marked first' second' [] [] [] [] marked.first first'
    marked.second second' (grammar.tokens input) entries between lead gap back rest)

include bare bareLater areWords crosses

theorem CrossesBoth.apart : (marked.leftOver lead gap rest).Apart where
  firstStarts := (crosses.first.joint bare.1).1
  firstEnds := by
    have ends := crosses.first.scans.endsWord_uncovered areWords.apart.firstEnds
    rw [crosses.second.uncovered_eq] at ends
    exact ends
  between := fun empty =>
    areWords.apart.between ((crosses.second.joint bareLater.1).2.mp empty)
  secondStarts := (crosses.second.joint bareLater.1).1
  secondEnds := crosses.second.scans.endsWord_uncovered areWords.apart.secondEnds

theorem CrossesBoth.leaves (text : input.toList = marked.text) :
    grammar.Leaves input marked (marked.leftOver lead gap rest).trimmed := by
  have apart := crosses.apart bare bareLater areWords
  have trimmed : (grammar.leftover input).toList = (marked.leftOver lead gap rest).trimmed.text := by
    rw [← @Marked.trim_text (marked.leftOver lead gap rest) bare.1 bare.2.1 bareLater.1
      bareLater.2.1, leftover, String.toList_ofList, Cursor.ofText, text, crosses.uncovered_eq]
    rfl
  constructor
  · rfl
  · rfl
  · exact trimmed
  · exact apart.trimmed.areWords bare.1 bare.2.1 bareLater.1 bareLater.2.1
  · intro copy member
    rcases crosses.first.front with ⟨front, split, stops⟩
    refine copy_eq text areWords.first split stops ?_ crosses.first.scans ?_ apart.firstStarts member
    · simp only [byteLength_append, byteLength_reverse, byteLength]
      omega
    · rw [Cursor.ofText, text]
      exact crosses.first.uncovered_eq
  · intro copy member
    have listed := areWords.second
    have whole := crosses.uncovered_eq
    rw [Marked.text_eq] at text listed whole
    rcases crosses.first.front with ⟨front, split, stops⟩
    rcases crosses.second.front with ⟨frontLater, rfl, stopsLater⟩
    rw [← List.append_assoc] at split
    have starts : StartsWord (lead ++ (marked.first ++ gap)) := by
      rw [← List.append_assoc]
      exact apart.secondStarts.append apart.between
    have found := copy_eq text listed split ?_ ?_ crosses.second.scans ?_ starts member
    · rw [found, dropWhile_around bare.2.1 bare.1]
      rfl
    · intro token member
      rcases List.mem_append.mp member with member | member
      · refine (stops token member).trans ?_
        simp only [byteLength_append]
        omega
      · exact stopsLater token member
    · simp only [byteLength_append, byteLength_reverse, byteLength]
      omega
    · rw [Cursor.ofText, text, whole]
      simp [Marked.behind]

end Leaving

/-- A word that means nothing to the grammar. -/
structure Foreign (grammar : Grammar) (word : List Char) : Prop where
  bare : BareWord word
  unspelled : ∀ field ∈ grammar.fields, ∀ value, ¬ field.Spells word value

/-- The marks that the words stand behind are all left over, so the words are outside of quotation
marks if their copies are. -/
theorem CrossesBoth.outside (quoteFree : grammar.IsQuoteFree)
    (noText : ∀ field ∈ grammar.fields, ∀ quotable, field.kind ≠ .text quotable)
    {tokens : List Token} {entries between : List (String × FieldValue)} {lead gap : List Char}
    {back rest : List Token} (scans : grammar.Scans ⟨[], marked.text⟩ tokens)
    (crosses : grammar.CrossesBoth marked first' second' [] [] [] [] marked.first first'
      marked.second second' tokens entries between lead gap back rest)
    (outside : (marked.leftOver lead gap rest).trimmed.Outside) : marked.Outside := by
  have all := quoteFree.count_uncovered noText scans
  have behindFirst : (gap ++ (marked.second ++ Token.uncovered marked.behind rest)).count '"' =
      (marked.middle ++ (marked.second ++ marked.right)).count '"' := by
    rw [← quoteFree.count_uncovered noText crosses.first.scans, crosses.second.uncovered_eq]
    rfl
  have behindSecond : (Token.uncovered marked.behind rest).count '"' = marked.right.count '"' :=
    quoteFree.count_uncovered noText crosses.second.scans
  rw [crosses.uncovered_eq] at all
  simp only [Marked.text, List.count_append] at all behindFirst behindSecond
  refine outside.of_trimmed.of_counts ?_ rfl ?_ rfl behindSecond
  · simp only [Marked.leftOver]
    omega
  · simp only [Marked.leftOver]
    omega

/-- With two other words in the places of two that mean nothing, a grammar without texts captures the
same and leaves the same over, up to these words. -/
theorem IsPlain.retype_passed (plain : grammar.IsPlain)
    (noText : ∀ field ∈ grammar.fields, ∀ quotable, field.kind ≠ .text quotable)
    (foreign : grammar.Foreign marked.first) (foreign' : grammar.Foreign first')
    (foreignLater : grammar.Foreign marked.second) (foreignLater' : grammar.Foreign second')
    (text : input.toList = marked.text) (text' : input'.toList = (marked.retype first' second').text)
    (areWords : marked.AreWords) :
    ∃ rest, grammar.Leaves input marked rest ∧ (rest.Outside →
      (grammar.captures input).map Capture.entry = (grammar.captures input').map Capture.entry ∧
      (grammar.leftover input').toList = (rest.retype first' second').text) := by
  have scans : grammar.Scans ⟨[], marked.text⟩ (grammar.tokens input) :=
    text ▸ grammar.scans_tokens input
  rcases plain.exists_crossesBoth foreign.bare foreign'.bare foreignLater.bare foreignLater'.bare
    (.passed noText foreign.unspelled foreign'.unspelled)
    (.passed noText foreignLater.unspelled foreignLater'.unspelled) areWords.apart
    (Or.inl ⟨rfl, rfl⟩) scans
    (fun _ _ _ field member _ => noText field member) with
    ⟨entries, between, lead, gap, back, rest, crosses⟩
  refine ⟨_, crosses.leaves foreign.bare foreignLater.bare areWords text, ?_⟩
  intro outside
  rcases crosses.retyped foreign.bare foreign'.bare foreignLater.bare foreignLater'.bare
    plain.isQuoteFree (crosses.outside plain.isQuoteFree noText scans outside) with
    ⟨tokens', tail', scans', entriesEq', uncovered', respaced⟩
  rw [← text'] at scans' uncovered'
  have tokensEq' := tokens_eq_iff.mpr scans'
  constructor
  · rw [captures, captures, tokensEq', List.map_map, List.map_map]
    exact crosses.entries_eq.trans entriesEq'.symm
  · have retyped := @Marked.trim_text ⟨lead, first', gap, second', tail'⟩ foreign'.bare.1
      foreign'.bare.2.1 foreignLater'.bare.1 foreignLater'.bare.2.1
    have inked (text : List Char) : EndsInked (trimEnd text) := by
      rcases exists_trimEnd text with ⟨_, _, _, inked⟩
      exact inked
    have sameEnd := respaced.trimEnd.eq_of_endsInked (inked _) (inked _)
    rw [leftover_of_scans scans', String.toList_ofList, Cursor.ofText, uncovered']
    refine retyped.trans ?_
    simp only [Marked.text, Marked.trimmed, Marked.leftOver, Marked.retype, sameEnd]

end Grammar

end SearchCommands
