import SearchCommands.Proofs.Grammar.Confinement
import SearchCommands.Proofs.Grammar.Retyping

/-!
# Scanning across a word

A scan does the same before two words that the grammar takes alike, takes both or passes over both,
and goes on behind them (`Grammar.IsPlain.exists_crossesWord`).  What it does before the words does
not depend on what stands behind them, so a second word can be crossed in the rest of the scan.
-/

namespace SearchCommands

open Text FieldPattern

namespace Grammar

variable {grammar : Grammar}

/-- Before the end of a text a scan passes over a character or takes a token. -/
theorem Scans.pass_or_take {before after : List Char} {tokens : List Token}
    (scans : grammar.Scans ⟨before, after⟩ tokens) (some : after ≠ []) :
    (∃ c rest, after = c :: rest ∧ (grammar.tokenAt? ⟨before, after⟩ = none ∨
        (Cursor.mk before after).insideQuotes = true) ∧ grammar.Scans ⟨c :: before, rest⟩ tokens) ∨
      ∃ token rest, tokens = token :: rest ∧ grammar.tokenAt? ⟨before, after⟩ = .some token ∧
        (Cursor.mk before after).insideQuotes = false ∧ grammar.Scans token.stop rest := by
  cases scans with
  | done => exact absurd rfl some
  | pass nothing rest => exact Or.inl ⟨_, _, rfl, nothing, rest⟩
  | take found outside rest => exact Or.inr ⟨_, _, rfl, found, outside, rest⟩

/-- Where a token is found outside of quotation marks, a scan takes it. -/
theorem Scans.of_found {before after : List Char} {token : Token} {tokens : List Token}
    (scans : grammar.Scans ⟨before, after⟩ tokens)
    (found : grammar.tokenAt? ⟨before, after⟩ = some token)
    (outside : (Cursor.mk before after).insideQuotes = false) :
    ∃ rest, tokens = token :: rest ∧ grammar.Scans token.stop rest := by
  have some : after ≠ [] := by
    rintro rfl
    rw [tokenAt?_of_allBlank .nil] at found
    cases found
  rcases scans.pass_or_take some with ⟨_, _, _, nothing, _⟩ | ⟨_, rest, rfl, found', _, behind⟩
  · simp [found, outside] at nothing
  · rw [found, Option.some.injEq] at found'
    exact ⟨rest, by rw [found'], found' ▸ behind⟩

/-- A scan that finds nothing in a text goes on behind it. -/
theorem Scans.behind_text {before text rest : List Char} {tokens : List Token}
    (nothing : ∀ left right, text = left ++ right → right ≠ [] →
      grammar.tokenAt? ⟨left.reverse ++ before, right ++ rest⟩ = none)
    (scans : grammar.Scans ⟨before, text ++ rest⟩ tokens) :
    grammar.Scans ⟨text.reverse ++ before, rest⟩ tokens := by
  induction text generalizing before with
  | nil => exact scans
  | cons c text ih =>
      have here := nothing [] (c :: text) rfl (List.cons_ne_nil c text)
      have onwards : grammar.Scans ⟨c :: before, text ++ rest⟩ tokens := by
        cases scans with
        | pass _ rest => exact rest
        | take found =>
            rw [List.reverse_nil, List.nil_append] at here
            rw [here] at found
            cases found
      rw [List.reverse_cons, List.append_assoc, List.singleton_append]
      apply ih ?_ onwards
      intro left right split nonempty
      have later := nothing (c :: left) right (by simp [split]) nonempty
      simpa using later

/-- A grammar without texts finds nothing in a word that none of its fields spells. -/
theorem IsPlain.nothing_in_word (plain : grammar.IsPlain)
    (noText : ∀ field ∈ grammar.fields, ∀ quotable, field.kind ≠ .text quotable) {word : List Char}
    (foreign : ∀ field ∈ grammar.fields, ∀ value, ¬ field.Spells word value) (bare : BareWord word)
    {right : List Char} (ends : EndsWord right) (before left rest : List Char)
    (split : word = left ++ rest) (nonempty : rest ≠ []) :
    grammar.tokenAt? ⟨left.reverse ++ before, rest ++ right⟩ = none := by
  cases left with
  | nil =>
      rw [List.nil_append] at split
      subst split
      rw [tokenAt?_eq_none_iff]
      intro field member stop value occurs
      have here : field.OccursAt ⟨before, [] ++ (word ++ right)⟩ stop value := occurs
      have noText := noText field member
      cases here.meetsWord (isProper member) (plain.quoteFree member) bare ends .nil (Or.inl noText)
        (fun quotable kind => absurd kind (noText quotable)) with
      | before split ahead => simp [ahead] at split
      | word _ spells => exact foreign field member value spells
      | operand kind => exact noText _ kind
  | cons c left =>
      rcases List.exists_cons_of_ne_nil nonempty with ⟨d, more, rfl⟩
      exact tokenAt?_of_inked (by simp) (bare.2.1 d (by simp [split]))

/-- A scan of a text crosses a word: it finds and leaves something before the word, takes the word
or leaves it, and goes on behind it.  A scan that goes on behind the other word, whatever stands
there, crosses that one likewise. -/
structure CrossesWord (grammar : Grammar) (word right before word' right' before' left : List Char)
    (own own' : List (String × FieldValue)) (kept kept' : List Char) (tokens : List Token)
    (entries : List (String × FieldValue)) (lead : List Char) (back : List Token) : Prop where
  scans : grammar.Scans ⟨word.reverse ++ (left.reverse ++ before), right⟩ back
  entries_eq : tokens.map Token.entry = entries ++ (own ++ back.map Token.entry)
  uncovered_eq : Token.uncovered ⟨before, left ++ (word ++ right)⟩ tokens =
    lead ++ (kept ++ Token.uncovered ⟨word.reverse ++ (left.reverse ++ before), right⟩ back)
  front : ∃ front, tokens = front ++ back ∧ ∀ token ∈ front,
    byteLength token.stop.before ≤ byteLength (word.reverse ++ (left.reverse ++ before))
  joint : kept ≠ [] → StartsWord lead ∧ (lead = [] ↔ left = [])
  elsewhere : ∀ back', grammar.Scans ⟨word'.reverse ++ (left.reverse ++ before'), right'⟩ back' →
    ∃ tokens', grammar.Scans ⟨before', left ++ (word' ++ right')⟩ tokens' ∧
      tokens'.map Token.entry = entries ++ (own' ++ back'.map Token.entry) ∧
      Token.uncovered ⟨before', left ++ (word' ++ right')⟩ tokens' =
        lead ++ (kept' ++
          Token.uncovered ⟨word'.reverse ++ (left.reverse ++ before'), right'⟩ back')

variable {word right before word' right' before' left : List Char}
  {own own' : List (String × FieldValue)} {kept kept' : List Char} {tokens : List Token}

/-- A word that is captured is taken from the blanks before it. -/
theorem IsPlain.crossesWord_of_captured (plain : grammar.IsPlain) {field : Field}
    (member : field ∈ grammar.fields) {signed whole : Bool} (kind : field.kind = .number signed whole)
    {value value' : FieldValue} (spells : field.Spells word value)
    (spells' : field.Spells word' value') (ends : EndsWord right) (ends' : EndsWord right')
    (blank : AllBlank left) (place : before = [] ∨ left ≠ []) (place' : before' = [] ∨ left ≠ [])
    (outside : (Cursor.mk before (left ++ (word ++ right))).insideQuotes = false)
    (outside' : (Cursor.mk before' (left ++ (word' ++ right'))).insideQuotes = false)
    (scans : grammar.Scans ⟨before, left ++ (word ++ right)⟩ tokens) :
    ∃ back, grammar.CrossesWord word right before word' right' before' left [(field.name, value)]
      [(field.name, value')] [] [] tokens [] [] back := by
  have aliased := (isProper member).aliased_of_number kind
  have found {word right before : List Char} {value : FieldValue} (spells : field.Spells word value)
      (ends : EndsWord right) (place : before = [] ∨ left ≠ []) :
      grammar.tokenAt? ⟨before, left ++ (word ++ right)⟩ =
        some ⟨field.name, ⟨before, left ++ (word ++ right)⟩,
          ⟨word.reverse ++ (left.reverse ++ before), right⟩, value⟩ := by
    apply plain.tokenAt?_of_aliased member aliased
    exact ⟨left, word, right, rfl, blank, spells, ends, place.imp_right fun ahead => ⟨aliased, ahead⟩,
      rfl⟩
  rcases scans.of_found (found spells ends place) outside with ⟨back, rfl, rest⟩
  refine ⟨back, rest, rfl, ?_, ⟨[_], rfl, ?_⟩, fun impossible => absurd rfl impossible, ?_⟩
  · rw [Token.uncovered, textTo_self]
    rfl
  · intro token only
    rw [List.mem_singleton.mp only]
  · intro back' rest'
    refine ⟨_, .take (found spells' ends' place') outside' rest', rfl, ?_⟩
    rw [Token.uncovered, textTo_self]
    rfl

/-- A word that means nothing is passed over. -/
theorem IsPlain.crossesWord_of_passed (plain : grammar.IsPlain)
    (noText : ∀ field ∈ grammar.fields, ∀ quotable, field.kind ≠ .text quotable)
    (foreign : ∀ field ∈ grammar.fields, ∀ value, ¬ field.Spells word value)
    (foreign' : ∀ field ∈ grammar.fields, ∀ value, ¬ field.Spells word' value)
    (bare : BareWord word) (bare' : BareWord word') (ends : EndsWord right) (ends' : EndsWord right')
    (scans : grammar.Scans ⟨before, word ++ right⟩ tokens) :
    grammar.CrossesWord word right before word' right' before' [] [] [] word word' tokens [] []
      tokens := by
  have nothing := plain.nothing_in_word noText foreign bare ends before
  have nothing' := plain.nothing_in_word noText foreign' bare' ends' before'
  have behind := scans.behind_text nothing
  refine ⟨behind, rfl, behind.uncovered_append, ⟨[], rfl, by simp⟩, fun _ => ⟨.nil, Iff.rfl⟩, ?_⟩
  intro back' rest'
  have passed : grammar.Scans ⟨before', word' ++ right'⟩ back' := by
    refine .pass_text ?_ rest'
    intro left rest split nonempty
    exact Or.inl (nothing' left rest split nonempty)
  exact ⟨back', passed, rfl, rest'.uncovered_append⟩

namespace CrossesWord

variable {entries : List (String × FieldValue)} {lead : List Char} {back : List Token}

/-- Passing over one more character before the word. -/
theorem pass {c : Char}
    (crosses : grammar.CrossesWord word right (c :: before) word' right' (c :: before') left own own'
      kept kept' tokens entries lead back) (starts : StartsWord (c :: left))
    (here : grammar.tokenAt? ⟨before', c :: left ++ (word' ++ right')⟩ = none ∨
      (Cursor.mk before' (c :: left ++ (word' ++ right'))).insideQuotes = true)
    (scans : grammar.Scans ⟨c :: before, left ++ (word ++ right)⟩ tokens) :
    grammar.CrossesWord word right before word' right' before' (c :: left) own own' kept kept' tokens
      entries (c :: lead) back := by
  have shift (before : List Char) : (c :: left).reverse ++ before = left.reverse ++ c :: before := by
    simp
  have step {before text : List Char} {tokens : List Token}
      (scans : grammar.Scans ⟨c :: before, text⟩ tokens) :
      Token.uncovered ⟨before, c :: text⟩ tokens = c :: Token.uncovered ⟨c :: before, text⟩ tokens :=
    @Scans.uncovered_append _ before [c] text tokens scans
  constructor
  · rw [shift]
    exact crosses.scans
  · exact crosses.entries_eq
  · rw [shift, List.cons_append, step scans, crosses.uncovered_eq]
    rfl
  · rw [shift]
    exact crosses.front
  · intro some
    rcases crosses.joint some with ⟨leadStarts, nothingLeft⟩
    refine ⟨?_, by simp⟩
    by_cases empty : lead = []
    · rw [nothingLeft.mp empty] at starts
      rw [empty]
      exact starts
    · exact @StartsWord.append [c] lead leadStarts empty
  · intro back' rest
    rw [shift] at rest
    rcases crosses.elsewhere back' rest with ⟨tokens', scans', entriesEq, uncoveredEq⟩
    refine ⟨tokens', .pass here scans', entriesEq, ?_⟩
    rw [shift, List.cons_append, step scans', uncoveredEq]
    rfl

/-- Taking a token before the word. -/
theorem take {near rest : List Char} {name : String} {value : FieldValue} {token : Token}
    (crosses : grammar.CrossesWord word right (near.reverse ++ before) word' right'
      (near.reverse ++ before') rest own own' kept kept' tokens entries lead back)
    (tokenEq : token = ⟨name, ⟨before, near ++ rest ++ (word ++ right)⟩,
      ⟨near.reverse ++ before, rest ++ (word ++ right)⟩, value⟩)
    (found' : grammar.tokenAt? ⟨before', near ++ rest ++ (word' ++ right')⟩ =
      some ⟨name, ⟨before', near ++ rest ++ (word' ++ right')⟩,
        ⟨near.reverse ++ before', rest ++ (word' ++ right')⟩, value⟩)
    (outside' : (Cursor.mk before' (near ++ rest ++ (word' ++ right'))).insideQuotes = false)
    (ahead : rest ≠ []) :
    grammar.CrossesWord word right before word' right' before' (near ++ rest) own own' kept kept'
      (token :: tokens) ((name, value) :: entries) lead back := by
  subst tokenEq
  have shift (before : List Char) :
      (near ++ rest).reverse ++ before = rest.reverse ++ (near.reverse ++ before) := by simp
  constructor
  · rw [shift]
    exact crosses.scans
  · rw [List.map_cons, crosses.entries_eq]
    rfl
  · rw [Token.uncovered, textTo_self, shift]
    exact crosses.uncovered_eq
  · rcases crosses.front with ⟨front, rfl, before⟩
    refine ⟨_ :: front, rfl, ?_⟩
    rw [shift, List.forall_mem_cons]
    refine ⟨?_, before⟩
    simp only [byteLength_append]
    omega
  · intro some
    rcases crosses.joint some with ⟨leadStarts, nothingLeft⟩
    exact ⟨leadStarts, by simp [nothingLeft, ahead]⟩
  · intro back' scans
    rw [shift] at scans
    rcases crosses.elsewhere back' scans with ⟨tokens', scans', entriesEq, uncoveredEq⟩
    refine ⟨_, .take found' outside' scans', ?_, ?_⟩
    · rw [List.map_cons, entriesEq]
      rfl
    · rw [Token.uncovered, textTo_self, shift]
      exact uncoveredEq

end CrossesWord

/-- The two places are at the start or inside their texts, and the marks before them are as many, up
to complete pairs. -/
structure SameSide (before before' : List Char) : Prop where
  start : before = [] ↔ before' = []
  parity : before.count '"' % 2 = before'.count '"' % 2

theorem SameSide.cons (same : SameSide before before') (c : Char) :
    SameSide (c :: before) (c :: before') where
  start := by simp
  parity := by
    have parity := same.parity
    rw [List.count_cons, List.count_cons]
    omega

theorem SameSide.append (same : SameSide before before') (near : List Char) :
    SameSide (near.reverse ++ before) (near.reverse ++ before') where
  start := by simp [same.start]
  parity := by
    have parity := same.parity
    rw [List.count_append, List.count_append]
    omega

/-- Both places are inside quotation marks or outside of them. -/
theorem SameSide.insideQuotes_eq (same : SameSide before before') (plain : '"' ∉ word)
    (plain' : '"' ∉ word') (marks : '"' ∈ right ↔ '"' ∈ right') (left : List Char) :
    (Cursor.mk before (left ++ (word ++ right))).insideQuotes =
      (Cursor.mk before' (left ++ (word' ++ right'))).insideQuotes := by
  apply Cursor.insideQuotes_congr same.parity
  simp only [List.mem_append, plain, plain', marks]

/-- Where a place is outside of quotation marks and so is a later one, no mark is open in between. -/
theorem even_between (outside : (Cursor.mk before (left ++ (word ++ right))).insideQuotes = false)
    (later : (left.reverse ++ before).count '"' % 2 = 0 ∨ '"' ∉ right) :
    left.count '"' % 2 = 0 ∨ '"' ∉ right := by
  rw [Cursor.insideQuotes_eq_false_iff] at outside
  rcases later with even | none
  · rw [List.count_append, List.count_reverse] at even
    rcases outside with evenBefore | none
    · left
      simp only at evenBefore
      omega
    · right
      exact fun member => none (List.mem_append_right _ (List.mem_append_right _ member))
  · exact Or.inr none

/-- Behind a character that is passed over, the word to take or to leave is still ahead: only blanks
at the start of a word that is taken would have been passed over too far. -/
theorem place_behind {c : Char} (starts : StartsWord (c :: left))
    (away : ¬ (AllBlank (c :: left) ∧ (own ≠ [] ∨ c :: left = []))) : left ≠ [] ∨ own = [] := by
  by_cases some : left = []
  · subst some
    right
    by_contra taken
    refine away ⟨?_, Or.inl taken⟩
    intro d member
    rw [List.mem_singleton.mp member]
    exact starts c rfl
  · exact Or.inl some

section Crossing

variable (plain : grammar.IsPlain) (takes : grammar.TakesAlike word word' own own' kept kept')
  (bare : BareWord word) (bare' : BareWord word') (ends : EndsWord right) (ends' : EndsWord right')
  (marks : '"' ∈ right ↔ '"' ∈ right')

include plain takes bare bare' ends ends' marks

/-- With nothing but blanks before the words, they are taken.  With nothing at all before them, they
are passed over if they mean nothing. -/
theorem IsPlain.crossesWord_here (blank : AllBlank left) (arrived : own ≠ [] ∨ left = [])
    (place : before = [] ∨ left ≠ [] ∨ own = []) (same : SameSide before before')
    (outside : own = [] ∨ (left.reverse ++ before).count '"' % 2 = 0 ∨ '"' ∉ right)
    (scans : grammar.Scans ⟨before, left ++ (word ++ right)⟩ tokens) :
    ∃ back, grammar.CrossesWord word right before word' right' before' left own own' kept kept' tokens
      [] [] back := by
  cases takes with
  | captured member kind spells spells' =>
      have place : before = [] ∨ left ≠ [] := by simpa using place
      have place' : before' = [] ∨ left ≠ [] := place.imp_left same.start.mp
      have here : (Cursor.mk before (left ++ (word ++ right))).insideQuotes = false := by
        have outside := outside.resolve_left (List.cons_ne_nil _ _)
        rw [List.count_append, List.count_reverse, blank.count_quote, Nat.zero_add] at outside
        rw [Cursor.insideQuotes_eq_false_iff]
        refine outside.imp_right fun none member => ?_
        have noBlank := List.count_eq_zero.mp blank.count_quote
        simp [noBlank, bare.2.2.1, none] at member
      have here' := same.insideQuotes_eq bare.2.2.1 bare'.2.2.1 marks left
      rw [here] at here'
      exact plain.crossesWord_of_captured member kind spells spells' ends ends' blank place place' here
        here'.symm scans
  | passed noText foreign foreign' =>
      have nothing : left = [] := by simpa using arrived
      subst nothing
      exact ⟨tokens, plain.crossesWord_of_passed noText foreign foreign' bare bare' ends ends' scans⟩

/-- A scan crosses two words that the grammar takes alike, unless a text of the grammar reads the
word as its value. -/
theorem IsPlain.exists_crossesWord (starts : StartsWord left)
    (place : before = [] ∨ left ≠ [] ∨ own = []) (same : SameSide before before')
    (outside : own = [] ∨ (left.reverse ++ before).count '"' % 2 = 0 ∨ '"' ∉ right)
    (scans : grammar.Scans ⟨before, left ++ (word ++ right)⟩ tokens)
    (unread : ∀ token ∈ tokens, token.stop.after = right → ∀ field ∈ grammar.fields,
      token.field = field.name → ∀ quotable, field.kind ≠ .text quotable) :
    ∃ entries lead back, grammar.CrossesWord word right before word' right' before' left own own' kept
      kept' tokens entries lead back := by
  have alike := takes.wordsAlike plain bare bare'
  have noText : own = [] → ∀ field ∈ grammar.fields, ∀ quotable, field.kind ≠ .text quotable := by
    cases takes with
    | captured => simp
    | passed noText => exact fun _ => noText
  -- the scan steps over a character or over a token, so less of the text before the words remains
  generalize size : left.length = length
  induction length using Nat.strongRecOn generalizing left before before' tokens with
  | _ length ih =>
      by_cases arrived : AllBlank left ∧ (own ≠ [] ∨ left = [])
      · rcases plain.crossesWord_here takes bare bare' ends ends' marks arrived.1 arrived.2 place same
          outside scans with ⟨back, crosses⟩
        exact ⟨[], [], back, crosses⟩
      have insideEq := same.insideQuotes_eq bare.2.2.1 bare'.2.2.1 marks left
      -- a place outside of quotation marks holds the same before both words, or nothing
      have findsBefore (here : (Cursor.mk before (left ++ (word ++ right))).insideQuotes = false) :
          grammar.FindsBefore word right before word' right' before' left
            (grammar.tokenAt? ⟨before, left ++ (word ++ right)⟩)
            (grammar.tokenAt? ⟨before', left ++ (word' ++ right')⟩) := by
        have even := outside.imp noText (even_between here)
        exact plain.findsBefore alike ends ends' starts even
          (even.imp_right fun even => even.imp_right (marks.not.mp ·)) same.start
      rcases scans.pass_or_take (by simp [bare.1]) with
        ⟨c, rest, split, nothing, behind⟩ | ⟨token, later, rfl, found, here, behind⟩
      · have nothing' : grammar.tokenAt? ⟨before', left ++ (word' ++ right')⟩ = none ∨
            (Cursor.mk before' (left ++ (word' ++ right'))).insideQuotes = true := by
          cases here : (Cursor.mk before (left ++ (word ++ right))).insideQuotes with
          | true => exact Or.inr (insideEq ▸ here)
          | false =>
              have finds := findsBefore here
              rw [nothing.resolve_right (by simp [here])] at finds
              exact Or.inl finds.eq_none
        cases left with
        | nil => exact absurd ⟨.nil, Or.inr rfl⟩ arrived
        | cons d left =>
            rw [List.cons_append, List.cons.injEq] at split
            rcases split with ⟨rfl, rfl⟩
            rcases ih left.length (size ▸ Nat.lt_succ_self _) (@StartsWord.of_append [d] left starts)
              (Or.inr (place_behind starts arrived)) (same.cons d) (by simpa using outside) behind
              unread rfl with
              ⟨entries, lead, back, crosses⟩
            exact ⟨entries, d :: lead, back, crosses.pass starts nothing' behind⟩
      · have finds := findsBefore here
        have shorter := length_stop_lt found
        rw [found] at finds
        generalize found' : grammar.tokenAt? ⟨before', left ++ (word' ++ right')⟩ = other at finds
        cases finds with
        | @before name value near rest split ahead restStarts =>
            subst split
            have outside' : own = [] ∨
                (rest.reverse ++ (near.reverse ++ before)).count '"' % 2 = 0 ∨ '"' ∉ right := by
              simpa using outside
            simp only [List.length_append] at shorter size
            rcases ih rest.length (by omega) restStarts (Or.inr (Or.inl ahead)) (same.append near)
              outside' behind (fun token member => unread token (List.mem_cons_of_mem _ member)) rfl
              with ⟨entries, lead, back, crosses⟩
            exact ⟨_, lead, back, crosses.take rfl found' (insideEq ▸ here) ahead⟩
        | @reached field member _ _ name stop reads =>
            exfalso
            rcases reads with ⟨blank, value, spells⟩ | ⟨quotable, kind⟩
            · cases takes with
              | captured => exact arrived ⟨blank, Or.inl (List.cons_ne_nil _ _)⟩
              | passed _ foreign => exact foreign field member value spells
            · exact unread token List.mem_cons_self stop field member name quotable kind

end Crossing

end Grammar

end SearchCommands
