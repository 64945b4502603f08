import SearchCommands.Proofs.Field.Retyping
import SearchCommands.Proofs.Grammar.Leftover
import SearchCommands.Proofs.Grammar.Plain

/-!
# Typing another word

A word of a text is exchanged for another one that the grammar treats alike: both are words of one
number, or both mean nothing to a grammar without texts.  At a place before the two words the grammar
finds nothing twice, the same token twice, or a token that reaches over the word in both texts
(`Grammar.IsPlain.findsBefore`).
-/

namespace SearchCommands

open Text FieldPattern

namespace Field

variable {field : Field}

theorem IsProper.aliased_of_number (proper : field.IsProper) {signed whole : Bool}
    (kind : field.kind = .number signed whole) : field.isPositional = false := by
  rw [← Bool.not_eq_true]
  intro positional
  rcases proper.positionalText positional with ⟨quotable, text⟩
  rw [kind] at text
  cases text

/-- A word of a field without blanks in it is the first word of an occurrence. -/
theorem Spells.leads (aliased : field.isPositional = false) {word : List Char} {value : FieldValue}
    (spells : field.Spells word value) (inked : NoBlank word) : field.Leads word := by
  rcases spells.exists_leads aliased .nil with ⟨lead, more, split, leads, ends⟩
  rw [List.append_nil] at split
  subst split
  cases more with
  | nil =>
      rw [List.append_nil]
      exact leads
  | cons c more =>
      have isBlank := ends c rfl
      rw [inked c (by simp)] at isBlank
      cases isBlank

end Field

namespace Grammar

variable {grammar : Grammar}

/-- A field of a plain grammar has one token at a place where it occurs. -/
theorem IsPlain.fieldTokenAt?_eq (plain : grammar.IsPlain) {field : Field}
    (member : field ∈ grammar.fields) {cursor stop : Cursor} {value : FieldValue}
    (occurs : field.OccursAt cursor stop value) :
    field.tokenAt? cursor = some ⟨field.name, cursor, stop, value⟩ := by
  have proper := isProper member
  by_cases noNumber : ∀ signed whole, field.kind ≠ .number signed whole
  · exact occurs.tokenAt?_eq proper noNumber
  · simp only [ne_eq, not_forall, Decidable.not_not] at noNumber
    rcases noNumber with ⟨signed, whole, kind⟩
    have aliased := proper.aliased_of_number kind
    cases found : field.tokenAt? cursor with
    | none => exact absurd occurs ((Field.tokenAt?_eq_none_iff proper).mp found stop value)
    | some token =>
        rcases Field.tokenAt?_eq_some proper found with ⟨name, start, occurs'⟩
        rcases plain.occursAt_unique member member aliased aliased occurs occurs' with
          ⟨_, stopEq, valueEq⟩
        rcases token with ⟨_, _, _, _⟩
        simp only at name start stopEq valueEq
        rw [name, start, stopEq, valueEq]

/-- The word of a number is a bare word, if no alias of the number has a dash in it. -/
theorem IsPlain.bareWord_of_number (plain : grammar.IsPlain) {field : Field}
    (member : field ∈ grammar.fields) {signed whole : Bool} (kind : field.kind = .number signed whole)
    (noDash : ∀ name ∈ field.aliases, '-' ∉ name.toList) {word : List Char} {value : FieldValue}
    (spells : field.Spells word value) : BareWord word := by
  have proper := isProper member
  have noText : ∀ quotable, field.kind ≠ .text quotable := by simp [kind]
  refine ⟨spells.ne_nil proper, spells.noBlank proper noText,
    (plain.quoteFree member).noQuote_spells noText spells, ?_⟩
  rcases spells.of_number kind with ⟨_, _, _, rfl, _, introduced, _⟩
  rcases List.exists_cons_of_ne_nil (introduced.ne_nil proper) with ⟨c, more, rfl⟩
  rcases introduced with ⟨name, nameMember, spelled, _⟩
  rw [List.cons_append, List.head?_cons]
  intro dash
  rcases Option.some.inj dash with rfl
  exact noDash name nameMember (spelled.mem_of_caseless isCaseless_minus List.mem_cons_self)

/-- Fields spell both words or neither, and no alias of a text is one of them. -/
structure WordsAlike (grammar : Grammar) (word word' : List Char) : Prop where
  bare : BareWord word
  bare' : BareWord word'
  noName : ∀ field ∈ grammar.fields, ∀ quotable, field.kind = .text quotable →
    ¬ field.Introduces word
  noName' : ∀ field ∈ grammar.fields, ∀ quotable, field.kind = .text quotable →
    ¬ field.Introduces word'
  spelled : ∀ field ∈ grammar.fields, ∀ value, field.Spells word value →
    ∃ value', field.Spells word' value'
  spelled' : ∀ field ∈ grammar.fields, ∀ value', field.Spells word' value' →
    ∃ value, field.Spells word value

/-- The tokens at two places before words that are alike: none, the same one before the words, or
two that reach over the words. -/
inductive FindsBefore (grammar : Grammar) (word right before word' right' before' left : List Char) :
    Option Token → Option Token → Prop where
  | nothing : FindsBefore grammar word right before word' right' before' left none none
  | before (name : String) (value : FieldValue) {near rest : List Char} (split : left = near ++ rest)
      (ahead : rest ≠ []) (starts : StartsWord rest) :
      FindsBefore grammar word right before word' right' before' left
        (some ⟨name, ⟨before, left ++ (word ++ right)⟩,
          ⟨near.reverse ++ before, rest ++ (word ++ right)⟩, value⟩)
        (some ⟨name, ⟨before', left ++ (word' ++ right')⟩,
          ⟨near.reverse ++ before', rest ++ (word' ++ right')⟩, value⟩)
  | reached {field : Field} (member : field ∈ grammar.fields) {token token' : Token}
      (name : token.field = field.name) (stop : token.stop.after = right)
      (reads : (AllBlank left ∧ ∃ value, field.Spells word value) ∨
        ∃ quotable, field.kind = .text quotable) :
      FindsBefore grammar word right before word' right' before' left (some token) (some token')

theorem FindsBefore.eq_none {word right before word' right' before' left : List Char}
    {found' : Option Token}
    (finds : grammar.FindsBefore word right before word' right' before' left none found') :
    found' = none := by
  cases finds
  rfl

section Places

variable {word right before word' right' before' left : List Char}

/-- At two places before words that are alike a field is found twice or not at all. -/
theorem IsPlain.fieldFindsBefore (plain : grammar.IsPlain) (alike : grammar.WordsAlike word word')
    (ends : EndsWord right) (ends' : EndsWord right') (starts : StartsWord left)
    {field : Field} (member : field ∈ grammar.fields)
    (outside : (∀ quotable, field.kind ≠ .text quotable) ∨ left.count '"' % 2 = 0 ∨ '"' ∉ right)
    (outside' : (∀ quotable, field.kind ≠ .text quotable) ∨ left.count '"' % 2 = 0 ∨ '"' ∉ right')
    (start : before = [] ↔ before' = []) :
    grammar.FindsBefore word right before word' right' before' left
      (field.tokenAt? ⟨before, left ++ (word ++ right)⟩)
      (field.tokenAt? ⟨before', left ++ (word' ++ right')⟩) := by
  have proper := isProper member
  have quoteFree := plain.quoteFree member
  cases found : field.tokenAt? ⟨before, left ++ (word ++ right)⟩ with
  | none =>
      have nothing := (Field.tokenAt?_eq_none_iff proper).mp found
      have nothing' : field.tokenAt? ⟨before', left ++ (word' ++ right')⟩ = none := by
        rw [Field.tokenAt?_eq_none_iff proper]
        intro stop' value' occurs'
        cases occurs'.meetsWord proper quoteFree alike.bare' ends' starts outside'
          (alike.noName' field member) with
        | before split ahead _ _ elsewhere =>
            exact nothing _ _ (elsewhere before (word ++ right) start.mpr)
        | word blank spells _ elsewhere =>
            rcases alike.spelled' field member _ spells with ⟨value, spells⟩
            exact nothing _ _ (elsewhere before word right value start.mpr spells ends)
        | operand kind _ elsewhere =>
            rcases elsewhere before word right start.mpr alike.bare ends with ⟨value, occurs⟩
            exact nothing _ _ occurs
      rw [nothing']
      exact .nothing
  | some token =>
      rcases Field.tokenAt?_eq_some proper found with ⟨name, begin, occurs⟩
      cases occurs.meetsWord proper quoteFree alike.bare ends starts outside
        (alike.noName field member) with
      | before split ahead restStarts stopEq elsewhere =>
          have occurs' := elsewhere before' (word' ++ right') start.mp
          rw [plain.fieldTokenAt?_eq member occurs']
          rcases token with ⟨_, _, _, value⟩
          simp only at name begin stopEq
          rw [name, begin, stopEq]
          exact .before field.name value split ahead restStarts
      | word blank spells stopEq elsewhere =>
          rcases alike.spelled field member _ spells with ⟨value', spells'⟩
          have occurs' := elsewhere before' word' right' value' start.mp spells' ends'
          rw [plain.fieldTokenAt?_eq member occurs']
          exact .reached member name (by rw [stopEq]) (Or.inl ⟨blank, _, spells⟩)
      | operand kind stopEq elsewhere =>
          rcases elsewhere before' word' right' start.mp alike.bare' ends' with ⟨value', occurs'⟩
          rw [plain.fieldTokenAt?_eq member occurs']
          exact .reached member name (by rw [stopEq]) (Or.inr ⟨_, kind⟩)

/-- At two places before words that are alike a plain grammar finds the same before the words, or
reaches over both of them. -/
theorem IsPlain.findsBefore (plain : grammar.IsPlain) (alike : grammar.WordsAlike word word')
    (ends : EndsWord right) (ends' : EndsWord right') (starts : StartsWord left)
    (outside : (∀ field ∈ grammar.fields, ∀ quotable, field.kind ≠ .text quotable) ∨
      left.count '"' % 2 = 0 ∨ '"' ∉ right)
    (outside' : (∀ field ∈ grammar.fields, ∀ quotable, field.kind ≠ .text quotable) ∨
      left.count '"' % 2 = 0 ∨ '"' ∉ right') (start : before = [] ↔ before' = []) :
    grammar.FindsBefore word right before word' right' before' left
      (grammar.tokenAt? ⟨before, left ++ (word ++ right)⟩)
      (grammar.tokenAt? ⟨before', left ++ (word' ++ right')⟩) := by
  apply tokenAt?_related .nothing
  · intro found found' finds
    cases finds with
    | nothing | before | reached => simp
  · intro field member
    exact plain.fieldFindsBefore alike ends ends' starts member
      (outside.imp_left fun noText => noText field member)
      (outside'.imp_left fun noText => noText field member) start

end Places

/-- A grammar captures two words as one number field, or it has no texts and passes over both
words.  Then come what it captures of each word and what it leaves of each. -/
inductive TakesAlike (grammar : Grammar) (word word' : List Char) :
    List (String × FieldValue) → List (String × FieldValue) → List Char → List Char → Prop where
  | captured {field : Field} (member : field ∈ grammar.fields) {signed whole : Bool}
      (kind : field.kind = .number signed whole) {value value' : FieldValue}
      (spells : field.Spells word value) (spells' : field.Spells word' value') :
      TakesAlike grammar word word' [(field.name, value)] [(field.name, value')] [] []
  | passed (noText : ∀ field ∈ grammar.fields, ∀ quotable, field.kind ≠ .text quotable)
      (foreign : ∀ field ∈ grammar.fields, ∀ value, ¬ field.Spells word value)
      (foreign' : ∀ field ∈ grammar.fields, ∀ value, ¬ field.Spells word' value) :
      TakesAlike grammar word word' [] [] word word'

section Takes

variable {word word' : List Char}

/-- A field that spells a word of a number is the field of this number, or it is positional. -/
theorem IsPlain.spells_of_number (plain : grammar.IsPlain) {field other : Field}
    (member : field ∈ grammar.fields) (otherMember : other ∈ grammar.fields) {signed whole : Bool}
    (kind : field.kind = .number signed whole) {value value' other₀ : FieldValue}
    (spells : field.Spells word value) (spells' : field.Spells word' value') (inked : NoBlank word)
    (bare' : BareWord word') (own : other.Spells word other₀) :
    ∃ value, other.Spells word' value := by
  cases positional : other.isPositional with
  | false =>
      have leads := spells.leads ((isProper member).aliased_of_number kind) inked
      rcases plain.isUnambiguous.leads_unique member otherMember leads (own.leads positional inked) with rfl
      exact ⟨value', spells'⟩
  | true =>
      rcases (isProper otherMember).positionalText positional with ⟨quotable, text⟩
      exact ⟨_, .positional text positional (Or.inr bare')⟩

/-- No alias is a word of a number. -/
theorem IsPlain.not_introduces_of_number (plain : grammar.IsPlain) {field other : Field}
    (member : other ∈ grammar.fields) {signed whole : Bool} (kind : field.kind = .number signed whole)
    {value : FieldValue} (spells : field.Spells word value) : ¬ other.Introduces word := by
  rcases spells.of_number kind with ⟨_, _, _, rfl, _, _, given, _⟩
  intro introduced
  exact plain.isUnambiguous.introduces_ne_number member introduced given rfl

theorem TakesAlike.wordsAlike (plain : grammar.IsPlain)
    {own own' : List (String × FieldValue)} {kept kept' : List Char}
    (takes : grammar.TakesAlike word word' own own' kept kept') (bare : BareWord word)
    (bare' : BareWord word') : grammar.WordsAlike word word' := by
  cases takes with
  | captured member kind spells spells' =>
      exact {
        bare := bare
        bare' := bare'
        noName := fun _ otherMember _ _ => plain.not_introduces_of_number otherMember kind spells
        noName' := fun _ otherMember _ _ => plain.not_introduces_of_number otherMember kind spells'
        spelled := fun _ otherMember _ =>
          plain.spells_of_number member otherMember kind spells spells' bare.2.1 bare'
        spelled' := fun _ otherMember _ =>
          plain.spells_of_number member otherMember kind spells' spells bare'.2.1 bare }
  | passed noText foreign foreign' =>
      exact {
        bare := bare
        bare' := bare'
        noName := fun field member quotable kind => absurd kind (noText field member quotable)
        noName' := fun field member quotable kind => absurd kind (noText field member quotable)
        spelled := fun field member value spells => absurd spells (foreign field member value)
        spelled' := fun field member value spells => absurd spells (foreign' field member value) }

end Takes

end Grammar

end SearchCommands
