import SearchCommands.Proofs.Field.Spacing
import SearchCommands.Proofs.Grammar.Alike
import SearchCommands.Proofs.Grammar.Confinement

/-!
# Grammars and spacing

Scans of a text and of a respaced one go through both in step: they pass over the same characters
and pairs of quotation marks, and over runs of blanks that need not be equally long.  At every step
they find nothing or the same, so in the end the captures agree in field and value, and the
leftovers are respaced.  A positional field asks for the start of the input, so the first step is
made on its own.
-/

namespace SearchCommands

open Text

namespace Cursor.Passes

variable {cursor stop : Cursor} (passes : cursor.Passes stop)

include passes

theorem before_ne_nil : stop.before ≠ [] := by
  rw [passes.reaches.before_eq]
  simp [passes.some]

/-- Behind complete pairs of quotation marks a place is outside of them as before. -/
theorem outside (outside : cursor.insideQuotes = false) : stop.insideQuotes = false := by
  have even := passes.even
  have split := passes.reaches.after_eq
  rw [insideQuotes_eq_false_iff] at outside ⊢
  rw [passes.reaches.before_eq, List.count_append, List.count_reverse]
  rcases outside with evenBefore | none
  · left
    omega
  · right
    intro member
    rw [split] at none
    exact none (List.mem_append_right _ member)

theorem length_lt : stop.after.length < cursor.after.length := by
  have nonempty := List.length_pos_of_ne_nil passes.some
  have split := congrArg List.length passes.reaches.after_eq
  rw [List.length_append] at split
  omega

end Cursor.Passes

theorem Cursor.passes_append {text : List Char} (some : text ≠ [])
    (even : text.count '"' % 2 = 0) (before rest : List Char) :
    (Cursor.mk before (text ++ rest)).Passes ⟨text.reverse ++ before, rest⟩ := by
  have covered : (Cursor.mk before (text ++ rest)).textTo ⟨text.reverse ++ before, rest⟩ = text :=
    textTo_eq rfl
  exact ⟨⟨text, rfl, rfl⟩, by rwa [covered], by rwa [covered]⟩

/-- Inside two texts the same is ahead but for spacing, and no quotation marks are open. -/
structure InStep (gaps : List Char → List Char → Prop) (cursor cursor' : Cursor) : Prop where
  some : cursor.before ≠ []
  some' : cursor'.before ≠ []
  outside : cursor.insideQuotes = false
  outside' : cursor'.insideQuotes = false
  respaced : Respaced gaps cursor.after cursor'.after

section InStep

variable {gaps : List Char → List Char → Prop} {cursor stop cursor' stop' : Cursor}

theorem Cursor.Passes.inStep (passes : cursor.Passes stop) (passes' : cursor'.Passes stop')
    (outside : cursor.insideQuotes = false) (outside' : cursor'.insideQuotes = false)
    (respaced : Respaced gaps stop.after stop'.after) : InStep gaps stop stop' :=
  ⟨passes.before_ne_nil, passes'.before_ne_nil, passes.outside outside, passes'.outside outside',
    respaced⟩

/-- A single last quotation mark encloses nothing, and any other character is no mark. -/
theorem InStep.of_char {c : Char} {before rest before' rest' : List Char}
    (single : c = '"' → '"' ∉ rest) (respaced : Respaced gaps rest rest')
    (outside : (Cursor.mk before (c :: rest)).insideQuotes = false)
    (outside' : (Cursor.mk before' (c :: rest')).insideQuotes = false) :
    InStep gaps ⟨c :: before, rest⟩ ⟨c :: before', rest'⟩ := by
  have step {before rest : List Char} (single : c = '"' → '"' ∉ rest)
      (outside : (Cursor.mk before (c :: rest)).insideQuotes = false) :
      (Cursor.mk (c :: before) rest).insideQuotes = false := by
    by_cases quote : c = '"'
    · rw [Cursor.insideQuotes_eq_false_iff]
      exact Or.inr (single quote)
    · rw [Cursor.insideQuotes_step quote]
      exact outside
  have single' (quote : c = '"') : '"' ∉ rest' :=
    fun member => single quote (respaced.mem_quote_iff.mpr member)
  exact ⟨List.cons_ne_nil _ _, List.cons_ne_nil _ _, step single outside, step single' outside',
    respaced⟩

end InStep

namespace Grammar

variable {grammar : Grammar} {gaps : List Char → List Char → Prop} {cursor cursor' : Cursor}
  {before blanks text before' blanks' text' : List Char}

/-- A grammar finds the same at a place and at the one that respacing makes of it. -/
theorem IsQuoteFree.tokenAt?_respaced (quoteFree : grammar.IsQuoteFree)
    (respacing : Respacing gaps before blanks text before' blanks' text') :
    FoundAlike gaps ⟨before, blanks ++ text⟩ ⟨before', blanks' ++ text'⟩
      (grammar.tokenAt? ⟨before, blanks ++ text⟩) (grammar.tokenAt? ⟨before', blanks' ++ text'⟩) := by
  apply tokenAt?_related .nothing
  · intro found found' alike
    cases alike with
    | nothing | token => simp
  · intro field member
    exact field.tokenAt?_respaced (isProper member) (quoteFree field member) respacing

/-- A field that occurs inside a run of blanks occurs at its start too. -/
theorem tokenAt?_inside_gap {left right : List Char} (blank : AllBlank (left ++ right))
    (inked : StartsInked text) (nothing : grammar.tokenAt? ⟨before, left ++ right ++ text⟩ = none) :
    grammar.tokenAt? ⟨left.reverse ++ before, right ++ text⟩ = none := by
  rw [tokenAt?_eq_none_iff] at nothing ⊢
  intro field member stop value occurs
  rcases occurs.after_blanks (isProper member) blank.of_append_right inked with
    ⟨word, rest, rfl, spells, ends, place, _⟩
  refine nothing field member ⟨word.reverse ++ ((left ++ right).reverse ++ before), rest⟩ value
    ⟨left ++ right, word, rest, rfl, blank, spells, ends, ?_, rfl⟩
  rcases place with start | ⟨aliased, some⟩
  · left
    exact (List.append_eq_nil_iff.mp start).2
  · right
    exact ⟨aliased, List.append_ne_nil_of_right_ne_nil left some⟩

theorem Scans.pass_gap (blank : AllBlank blanks) (inked : StartsInked text)
    (nothing : grammar.tokenAt? ⟨before, blanks ++ text⟩ = none) {tokens : List Token}
    (scans : grammar.Scans ⟨blanks.reverse ++ before, text⟩ tokens) :
    grammar.Scans ⟨before, blanks ++ text⟩ tokens := by
  refine pass_text ?_ scans
  rintro left right rfl _
  exact Or.inl (tokenAt?_inside_gap blank inked nothing)

/-- What a scan leaves starts with the character at which it found nothing. -/
theorem Scans.head?_uncovered {c : Char} {after : List Char}
    (nothing : grammar.tokenAt? ⟨before, c :: after⟩ = none) {tokens : List Token}
    (scans : grammar.Scans ⟨before, c :: after⟩ tokens) :
    (Token.uncovered ⟨before, c :: after⟩ tokens).head? = some c := by
  cases scans with
  | pass _ rest =>
      have uncovered : Token.uncovered ⟨before, c :: after⟩ tokens =
          c :: Token.uncovered ⟨c :: before, after⟩ tokens :=
        @uncovered_append _ before [c] after tokens rest
      rw [uncovered]
      rfl
  | take found =>
      rw [nothing] at found
      cases found

/-- Scans from two places find the same, and what they leave is respaced. -/
inductive ScansAlike (grammar : Grammar) (gaps : List Char → List Char → Prop)
    (cursor cursor' : Cursor) : Prop where
  | both (tokens tokens' : List Token) (scans : grammar.Scans cursor tokens)
      (scans' : grammar.Scans cursor' tokens')
      (entries : tokens.map Token.entry = tokens'.map Token.entry)
      (uncovered : Respaced gaps (Token.uncovered cursor tokens) (Token.uncovered cursor' tokens'))

namespace ScansAlike

/-- Both scans pass over a text, and what they leave is respaced with these texts in front. -/
theorem pass {rest rest' : List Char}
    (alike : grammar.ScansAlike gaps ⟨text.reverse ++ before, rest⟩
      ⟨text'.reverse ++ before', rest'⟩)
    (passes : ∀ tokens, grammar.Scans ⟨text.reverse ++ before, rest⟩ tokens →
      grammar.Scans ⟨before, text ++ rest⟩ tokens)
    (passes' : ∀ tokens, grammar.Scans ⟨text'.reverse ++ before', rest'⟩ tokens →
      grammar.Scans ⟨before', text' ++ rest'⟩ tokens)
    (joins : ∀ tokens tokens', grammar.Scans ⟨text.reverse ++ before, rest⟩ tokens →
      Respaced gaps (Token.uncovered ⟨text.reverse ++ before, rest⟩ tokens)
        (Token.uncovered ⟨text'.reverse ++ before', rest'⟩ tokens') →
      Respaced gaps (text ++ Token.uncovered ⟨text.reverse ++ before, rest⟩ tokens)
        (text' ++ Token.uncovered ⟨text'.reverse ++ before', rest'⟩ tokens')) :
    grammar.ScansAlike gaps ⟨before, text ++ rest⟩ ⟨before', text' ++ rest'⟩ := by
  rcases alike with ⟨tokens, tokens', scans, scans', entries, uncovered⟩
  refine ⟨tokens, tokens', passes _ scans, passes' _ scans', entries, ?_⟩
  rw [scans.uncovered_append, scans'.uncovered_append]
  exact joins tokens tokens' scans uncovered

theorem ends (blank : AllBlank blanks) (blank' : AllBlank blanks') :
    grammar.ScansAlike gaps ⟨before, blanks⟩ ⟨before', blanks'⟩ :=
  ⟨[], [], .pass_blanks blank, .pass_blanks blank', rfl, .ends blank blank'⟩

theorem take {stop stop' : Cursor} {name : String} {value : FieldValue}
    (alike : grammar.ScansAlike gaps stop stop')
    (found : grammar.tokenAt? cursor = some ⟨name, cursor, stop, value⟩)
    (found' : grammar.tokenAt? cursor' = some ⟨name, cursor', stop', value⟩)
    (outside : cursor.insideQuotes = false) (outside' : cursor'.insideQuotes = false) :
    grammar.ScansAlike gaps cursor cursor' := by
  rcases alike with ⟨tokens, tokens', scans, scans', entries, uncovered⟩
  refine ⟨_, _, .take found outside scans, .take found' outside' scans', ?_, ?_⟩
  · rw [List.map_cons, List.map_cons, entries]
    rfl
  · rw [Token.uncovered, Token.uncovered, textTo_self, textTo_self]
    exact uncovered

theorem gap {c : Char} (some : blanks ≠ []) (some' : blanks' ≠ []) (blank : AllBlank blanks)
    (blank' : AllBlank blanks') (same : gaps blanks blanks') (inked : isBlank c = false)
    (inked' : StartsInked text')
    (nothing : grammar.tokenAt? ⟨before, blanks ++ c :: text⟩ = none)
    (nothing' : grammar.tokenAt? ⟨before', blanks' ++ text'⟩ = none)
    (alike : grammar.ScansAlike gaps ⟨blanks.reverse ++ before, c :: text⟩
      ⟨blanks'.reverse ++ before', text'⟩) :
    grammar.ScansAlike gaps ⟨before, blanks ++ c :: text⟩ ⟨before', blanks' ++ text'⟩ := by
  have starts : StartsInked (c :: text) := by simpa [StartsInked] using inked
  refine alike.pass (fun tokens => .pass_gap blank starts nothing)
    (fun tokens => .pass_gap blank' inked' nothing') ?_
  intro tokens tokens' scans uncovered
  have head := scans.head?_uncovered (tokenAt?_of_inked (by simp [some]) inked)
  refine .gap some some' blank blank' same ?_ ?_ uncovered
  · intro empty
    rw [empty] at head
    cases head
  · rw [StartsInked, head]
    simpa using inked

theorem pair {inside rest rest' : List Char} (plain : '"' ∉ inside)
    (outside : (Cursor.mk before (enclosed inside ++ rest)).insideQuotes = false)
    (outside' : (Cursor.mk before' (enclosed inside ++ rest')).insideQuotes = false)
    (nothing : grammar.tokenAt? ⟨before, enclosed inside ++ rest⟩ = none)
    (nothing' : grammar.tokenAt? ⟨before', enclosed inside ++ rest'⟩ = none)
    (alike : grammar.ScansAlike gaps ⟨(enclosed inside).reverse ++ before, rest⟩
      ⟨(enclosed inside).reverse ++ before', rest'⟩) :
    grammar.ScansAlike gaps ⟨before, enclosed inside ++ rest⟩
      ⟨before', enclosed inside ++ rest'⟩ := by
  have even {before rest : List Char}
      (outside : (Cursor.mk before (enclosed inside ++ rest)).insideQuotes = false) :
      before.count '"' % 2 = 0 := by
    rw [Cursor.insideQuotes_eq_false_iff] at outside
    exact outside.resolve_right (not_not_intro (by simp [enclosed]))
  exact alike.pass (fun tokens => .pass_enclosed (even outside) plain nothing)
    (fun tokens => .pass_enclosed (even outside') plain nothing')
    (fun tokens tokens' _ uncovered => .pair plain uncovered)

theorem char {c : Char} {rest rest' : List Char} (inked : isBlank c = false)
    (single : c = '"' → '"' ∉ rest) (nothing : grammar.tokenAt? ⟨before, c :: rest⟩ = none)
    (nothing' : grammar.tokenAt? ⟨before', c :: rest'⟩ = none)
    (alike : grammar.ScansAlike gaps ⟨c :: before, rest⟩ ⟨c :: before', rest'⟩) :
    grammar.ScansAlike gaps ⟨before, c :: rest⟩ ⟨before', c :: rest'⟩ := by
  refine @pass _ _ before [c] before' [c] rest rest' alike (fun tokens => .pass (Or.inl nothing))
    (fun tokens => .pass (Or.inl nothing')) ?_
  intro tokens tokens' scans uncovered
  refine .char inked ?_ uncovered
  intro quote member
  exact single quote (scans.sublist_uncovered.subset member)

/-- Where nothing is found before a word, the scans pass over its first character, or over a pair
of quotation marks with which it starts. -/
theorem word (respaced : Respaced gaps text text') (inked : StartsInked text)
    (outside : (Cursor.mk before text).insideQuotes = false)
    (outside' : (Cursor.mk before' text').insideQuotes = false)
    (nothing : grammar.tokenAt? ⟨before, text⟩ = none)
    (nothing' : grammar.tokenAt? ⟨before', text'⟩ = none)
    (onwards : ∀ {stop stop' : Cursor}, InStep gaps stop stop' →
      stop.after.length < text.length → grammar.ScansAlike gaps stop stop') :
    grammar.ScansAlike gaps ⟨before, text⟩ ⟨before', text'⟩ := by
  cases respaced with
  | ends blank blank' => exact .ends blank blank'
  | gap some _ blank =>
      rcases List.exists_cons_of_ne_nil some with ⟨c, more, rfl⟩
      have isBlank := blank c List.mem_cons_self
      rw [inked c rfl] at isBlank
      cases isBlank
  | @pair inside rest rest' plain respaced =>
      have even : (enclosed inside).count '"' % 2 = 0 := by rw [count_enclosed plain]
      have passes := Cursor.passes_append (List.cons_ne_nil _ _) even before rest
      have passes' := Cursor.passes_append (List.cons_ne_nil _ _) even before' rest'
      exact .pair plain outside outside' nothing nothing'
        (onwards (passes.inStep passes' outside outside' respaced) passes.length_lt)
  | char isInked single respaced =>
      exact .char isInked single nothing nothing'
        (onwards (.of_char single respaced outside outside') (Nat.lt_succ_self _))

end ScansAlike

/-- Inside respaced texts scans go on alike. -/
theorem IsQuoteFree.scansAlike (quoteFree : grammar.IsQuoteFree)
    (inStep : InStep gaps cursor cursor') : grammar.ScansAlike gaps cursor cursor' := by
  -- both scans step over runs of blanks, pairs and tokens, and each step leaves less of the text
  generalize size : cursor.after.length = length
  induction length using Nat.strongRecOn generalizing cursor cursor' with
  | _ length ih =>
      have onwards {stop stop' : Cursor} (inStep : InStep gaps stop stop')
          (shorter : stop.after.length < cursor.after.length) :
          grammar.ScansAlike gaps stop stop' := ih _ (size ▸ shorter) inStep rfl
      rcases cursor with ⟨before, after⟩
      rcases cursor' with ⟨before', after'⟩
      rcases inStep with ⟨some, some', outside, outside', respaced⟩
      cases respaced with
      | ends blank blank' => exact .ends blank blank'
      | @gap blanks blanks' text text' gapSome gapSome' blank blank' same word inked rest =>
          have inked' := rest.startsInked inked word
          have respacing : Respacing gaps before blanks text before' blanks' text' :=
            ⟨Or.inr ⟨⟨some, some'⟩, gapSome, gapSome'⟩, blank, blank', inked, inked', rest⟩
          have found := quoteFree.tokenAt?_respaced respacing
          generalize atPlace : grammar.tokenAt? ⟨before, blanks ++ text⟩ = here,
            atPlace' : grammar.tokenAt? ⟨before', blanks' ++ text'⟩ = here' at found
          cases found with
          | nothing =>
              have passes := Cursor.passes_append gapSome (by rw [blank.count_quote]) before text
              have passes' := Cursor.passes_append gapSome' (by rw [blank'.count_quote]) before' text'
              have behind := onwards (passes.inStep passes' outside outside' rest) passes.length_lt
              rcases List.exists_cons_of_ne_nil word with ⟨c, more, rfl⟩
              exact .gap gapSome gapSome' blank blank' same (inked c rfl) inked' atPlace atPlace'
                behind
          | token name value passes passes' rest =>
              have behind := onwards (passes.inStep passes' outside outside' rest) passes.length_lt
              exact behind.take atPlace atPlace' outside outside'
      | pair plain rest =>
          exact .word (.pair plain rest) ((trimmed_enclosed _).1.append (List.cons_ne_nil _ _))
            outside outside' (tokenAt?_of_inked some isBlank_quote)
            (tokenAt?_of_inked some' isBlank_quote) onwards
      | char inked single rest =>
          exact .word (.char inked single rest) (by simpa [StartsInked] using inked) outside outside'
            (tokenAt?_of_inked some inked) (tokenAt?_of_inked some' inked) onwards

/-- Scans of respaced texts find the same, whatever blanks stand before the texts, and what they
leave is respaced once it is trimmed. -/
theorem IsQuoteFree.exists_scans_respaced (quoteFree : grammar.IsQuoteFree)
    (blank : AllBlank blanks) (blank' : AllBlank blanks') (inked : StartsInked text)
    (inked' : StartsInked text') (respaced : Respaced gaps text text') :
    ∃ tokens tokens', grammar.Scans ⟨[], blanks ++ text⟩ tokens ∧
      grammar.Scans ⟨[], blanks' ++ text'⟩ tokens' ∧
      tokens.map Token.entry = tokens'.map Token.entry ∧
      Respaced gaps (trim (Token.uncovered ⟨[], blanks ++ text⟩ tokens))
        (trim (Token.uncovered ⟨[], blanks' ++ text'⟩ tokens')) := by
  have outside {blanks : List Char} (blank : AllBlank blanks) (after : List Char) :
      (Cursor.mk (blanks.reverse ++ []) after).insideQuotes = false :=
    Cursor.insideQuotes_of_even (by simp [blank.count_quote]) after
  have found := quoteFree.tokenAt?_respaced
    ⟨Or.inl ⟨rfl, rfl⟩, blank, blank', inked, inked', respaced⟩
  generalize atPlace : grammar.tokenAt? ⟨[], blanks ++ text⟩ = here,
    atPlace' : grammar.tokenAt? ⟨[], blanks' ++ text'⟩ = here' at found
  cases found with
  | token name value passes passes' onwards =>
      have behind := quoteFree.scansAlike
        (passes.inStep passes' (outside .nil _) (outside .nil _) onwards)
      rcases behind.take atPlace atPlace' (outside .nil _) (outside .nil _) with
        ⟨tokens, tokens', scans, scans', entries, uncovered⟩
      exact ⟨tokens, tokens', scans, scans', entries, uncovered.trim⟩
  | nothing =>
      -- nothing is found in the blanks either, so the scans meet where the texts start
      have silent {blanks text : List Char} (blank : AllBlank blanks) (inked : StartsInked text)
          (nothing : grammar.tokenAt? ⟨[], blanks ++ text⟩ = none) :
          grammar.tokenAt? ⟨blanks.reverse ++ [], text⟩ = none := by
        rw [← List.append_nil blanks] at blank nothing
        exact tokenAt?_inside_gap blank inked nothing
      rcases ScansAlike.word respaced inked (outside blank _) (outside blank' _)
          (silent blank inked atPlace) (silent blank' inked' atPlace')
          (fun inStep _ => quoteFree.scansAlike inStep) with
        ⟨tokens, tokens', scans, scans', entries, uncovered⟩
      refine ⟨tokens, tokens', .pass_gap blank inked atPlace scans,
        .pass_gap blank' inked' atPlace' scans', entries, ?_⟩
      rw [scans.uncovered_append, scans'.uncovered_append, trim_blanks_append blank,
        trim_blanks_append blank']
      exact uncovered.trim

variable {input input' : String}

/-- Respaced inputs have captures of the same fields with the same values, in the same order, and
their leftovers are respaced. -/
theorem IsQuoteFree.captures_respaced (quoteFree : grammar.IsQuoteFree)
    (same : Respaced gaps (trim input.toList) (trim input'.toList)) :
    (grammar.captures input).map Capture.entry = (grammar.captures input').map Capture.entry ∧
      Respaced gaps (grammar.leftover input).toList (grammar.leftover input').toList := by
  rcases same.of_trim with
    ⟨blanks, text, blanks', text', split, split', blank, blank', inked, inked', respaced⟩
  rcases quoteFree.exists_scans_respaced blank blank' inked inked' respaced with
    ⟨tokens, tokens', scans, scans', entries, uncovered⟩
  rw [← split] at scans uncovered
  rw [← split'] at scans' uncovered
  rw [leftover_of_scans scans, leftover_of_scans scans', String.toList_ofList,
    String.toList_ofList]
  refine ⟨?_, uncovered⟩
  have tokensEq := tokens_eq_iff.mpr scans
  have tokensEq' := tokens_eq_iff.mpr scans'
  rw [captures, captures, tokensEq, tokensEq', List.map_map, List.map_map]
  exact entries

/-- Blanks at the ends of an input make no difference at all. -/
theorem IsQuoteFree.captures_trim (quoteFree : grammar.IsQuoteFree) (input : String) :
    (grammar.captures (String.ofList (trim input.toList))).map Capture.entry =
        (grammar.captures input).map Capture.entry ∧
      grammar.leftover (String.ofList (trim input.toList)) = grammar.leftover input := by
  have idempotent : trim (trim input.toList) = trim input.toList :=
    trim_eq_self_iff.mpr (trimmed_trim _)
  have same : Respaced Eq (trim (String.ofList (trim input.toList)).toList)
      (trim input.toList) := by
    rw [String.toList_ofList, idempotent]
    exact .refl (fun _ => rfl) _
  rcases quoteFree.captures_respaced same with ⟨entries, leftovers⟩
  have ends (input : String) : EndsInked (grammar.leftover input).toList :=
    (grammar.trimmed_leftover input).2
  exact ⟨entries, String.toList_injective (leftovers.eq_of_endsInked (ends _) (ends _))⟩

theorem IsQuoteFree.captures_congr (quoteFree : grammar.IsQuoteFree)
    (same : trim input.toList = trim input'.toList) :
    (grammar.captures input).map Capture.entry = (grammar.captures input').map Capture.entry ∧
      grammar.leftover input = grammar.leftover input' := by
  rcases quoteFree.captures_trim input with ⟨entries, leftovers⟩
  rcases quoteFree.captures_trim input' with ⟨entries', leftovers'⟩
  rw [same] at entries leftovers
  exact ⟨entries.symm.trans entries', leftovers.symm.trans leftovers'⟩

end Grammar

/-- The inputs differ at most in the blanks at their ends and in the runs of blanks between words,
outside of pairs of quotation marks. -/
def EqualUpToBlanks (input input' : String) : Prop :=
  Respaced (fun _ _ => True) (trim input.toList) (trim input'.toList)

namespace Grammar

variable {grammar : Grammar} {input input' : String} (quoteFree : grammar.IsQuoteFree)

include quoteFree

theorem IsQuoteFree.captures_spacing (same : EqualUpToBlanks input input') :
    (grammar.captures input).map Capture.entry = (grammar.captures input').map Capture.entry ∧
      EqualUpToBlanks (grammar.leftover input) (grammar.leftover input') := by
  rcases quoteFree.captures_respaced same with ⟨entries, leftovers⟩
  exact ⟨entries, leftovers.trim⟩

variable (builtIn : grammar.HasBuiltInRules)

include builtIn

/-- Inputs that differ in their spacing are read with the same verdict and values. -/
theorem IsQuoteFree.read_spacing (same : EqualUpToBlanks input input') :
    ResultsAlike (Failure.Alike EqualUpToBlanks)
      (Reading.Alike Eq (fun capture capture' => capture.entry = capture'.entry) EqualUpToBlanks)
      (grammar.read input) (grammar.read input') := by
  rcases quoteFree.captures_spacing same with ⟨entries, leftovers⟩
  refine builtIn.read_alike (fun same => congrArg Prod.fst same) (fun same => congrArg Prod.snd same)
    ?_ ?_ leftovers
  · intro found found' alike
    rw [List.forall₂_eq_eq_eq] at alike
    rw [alike]
  · rw [← List.forall₂_eq_eq_eq, List.forall₂_map_left_iff, List.forall₂_map_right_iff] at entries
    exact entries

variable {σ : Type} (setters : List (Setter σ)) (target : σ)

theorem IsQuoteFree.fill_spacing (same : EqualUpToBlanks input input') :
    ResultsAlike (Failure.Alike EqualUpToBlanks) (Outcome.Alike Eq EqualUpToBlanks)
      (grammar.fill setters target input) (grammar.fill setters target input') := by
  rcases quoteFree.captures_spacing same with ⟨entries, leftovers⟩
  rcases builtIn.fill_congr entries setters target with
    ⟨error, refused, refused'⟩ | ⟨filled, done, done'⟩
  · rw [refused, refused']
    exact .failed ⟨rfl, leftovers⟩
  · rw [done, done']
    exact .done ⟨rfl, leftovers⟩

theorem IsQuoteFree.fill_trim (input : String) :
    grammar.fill setters target (String.ofList (trim input.toList)) =
      grammar.fill setters target input := by
  rcases quoteFree.captures_trim input with ⟨entries, leftovers⟩
  rcases builtIn.fill_congr entries setters target with
    ⟨error, refused, refused'⟩ | ⟨filled, done, done'⟩
  · rw [refused, refused', leftovers]
  · rw [done, done', leftovers]

end Grammar

end SearchCommands
