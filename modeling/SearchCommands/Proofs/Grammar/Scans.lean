import SearchCommands.Proofs.Grammar.Tokens
import SearchCommands.Proofs.Text.Quotation

/-!
# Scanning as a relation

A scan passes over places one by one and takes a token where one stands outside quotation marks.
`Grammar.Scans` says this without counting characters to skip; `Grammar.tokens_eq_iff` ties it to
the scan of a grammar.  Jumping behind a pair of quotation marks is no step of its own, since every
place inside the pair is passed over as well.
-/

namespace SearchCommands

open Text

namespace Field

theorem Spells.ne_nil {field : Field} (proper : field.IsProper) {word : List Char}
    {value : FieldValue} (spells : field.Spells word value) : word ≠ [] := by
  cases spells with
  | flag _ introduced => exact introduced.ne_nil proper
  | text _ _ introduced _ _ _ => simp [introduced.ne_nil proper]
  | positional _ _ inside =>
      rcases inside with ⟨_, _, _, rfl⟩ | bare
      · simp [enclosed]
      · exact bare.1
  | number _ introduced _ _ => simp [introduced.ne_nil proper]

theorem Spells.startsInked {field : Field} (proper : field.IsProper) {word : List Char}
    {value : FieldValue} (spells : field.Spells word value) : StartsInked word := by
  cases spells with
  | flag _ introduced => exact (introduced.noBlank proper).startsInked
  | text _ _ introduced _ _ _ =>
      exact (introduced.noBlank proper).startsInked.append (introduced.ne_nil proper)
  | positional _ _ inside =>
      rcases inside with ⟨_, inside, _, rfl⟩ | bare
      · exact (trimmed_enclosed inside).1
      · exact bare.2.1.startsInked
  | number _ introduced _ _ =>
      exact (introduced.noBlank proper).startsInked.append (introduced.ne_nil proper)

end Field

/-- What a token says: the field with its value. -/
def Token.entry (token : Token) : String × FieldValue := (token.field, token.value)

namespace Grammar

variable {grammar : Grammar}

/-- The tokens that are taken from a place on. -/
inductive Scans (grammar : Grammar) : Cursor → List Token → Prop where
  | done (before : List Char) : Scans grammar ⟨before, []⟩ []
  | pass {before after : List Char} {c : Char} {tokens : List Token}
      (nothing : grammar.tokenAt? ⟨before, c :: after⟩ = none ∨
        (Cursor.mk before (c :: after)).insideQuotes = true)
      (rest : Scans grammar ⟨c :: before, after⟩ tokens) :
      Scans grammar ⟨before, c :: after⟩ tokens
  | take {cursor : Cursor} {token : Token} {tokens : List Token}
      (found : grammar.tokenAt? cursor = some token) (outside : cursor.insideQuotes = false)
      (rest : Scans grammar token.stop tokens) : Scans grammar cursor (token :: tokens)

/-- A token takes at least one character. -/
theorem stop_of_tokenAt? {cursor : Cursor} {token : Token}
    (found : grammar.tokenAt? cursor = some token) :
    ∃ c text rest, cursor.after = c :: text ++ rest ∧
      token.stop = ⟨(c :: text).reverse ++ cursor.before, rest⟩ := by
  rcases tokenAt?_eq_some found with ⟨field, member, _, _, occurs⟩
  rcases occurs with ⟨blanks, word, rest, split, _, spells, _, _, stop⟩
  have nonempty : blanks ++ word ≠ [] := by simp [spells.ne_nil (isProper member)]
  rcases List.exists_cons_of_ne_nil nonempty with ⟨c, text, whole⟩
  refine ⟨c, text, rest, ?_, ?_⟩
  · rw [← whole, split, List.append_assoc]
  · rw [← whole, stop, List.reverse_append, List.append_assoc]

/-- A scan from one place gives one list of tokens. -/
theorem Scans.deterministic {cursor : Cursor} {tokens tokens' : List Token}
    (scans : grammar.Scans cursor tokens) (scans' : grammar.Scans cursor tokens') :
    tokens = tokens' := by
  induction scans generalizing tokens' with
  | done before =>
      generalize atEnd : Cursor.mk before [] = cursor at scans'
      cases scans' with
      | done => rfl
      | pass => cases atEnd
      | take found _ _ =>
          rcases stop_of_tokenAt? found with ⟨c, text, rest, split, _⟩
          rw [← atEnd] at split
          cases split
  | @pass before after c tokens nothing rest ih =>
      generalize here : Cursor.mk before (c :: after) = cursor at scans'
      cases scans' with
      | done => cases here
      | pass _ rest' =>
          cases here
          exact ih rest'
      | take found outside _ =>
          subst here
          rcases nothing with none | inside
          · rw [none] at found
            cases found
          · rw [inside] at outside
            cases outside
  | @take cursor token tokens found outside rest ih =>
      cases scans' with
      | done before =>
          rcases stop_of_tokenAt? found with ⟨c, text, rest, split, _⟩
          cases split
      | pass nothing rest' =>
          rcases nothing with none | inside
          · rw [none] at found
            cases found
          · rw [inside] at outside
            cases outside
      | take found' _ rest' =>
          rw [found] at found'
          cases found'
          rw [ih rest']

theorem tokensFrom_skip (grammar : Grammar) (before text after : List Char) :
    grammar.tokensFrom before text.length (text ++ after) =
      grammar.tokensFrom (text.reverse ++ before) 0 after := by
  induction text generalizing before with
  | nil => rfl
  | cons c text ih =>
      rw [List.length_cons, List.cons_append, tokensFrom, ih]
      simp

/-- Skipping up to the rest of a text is going on from there. -/
theorem tokensFrom_jump (grammar : Grammar) (before : List Char) {c : Char}
    {after text rest : List Char} (split : c :: after = c :: text ++ rest) :
    grammar.tokensFrom (c :: before) (after.length - rest.length) after =
      grammar.tokensFrom ((c :: text).reverse ++ before) 0 rest := by
  simp only [List.cons_append, List.cons.injEq, true_and] at split
  have count : after.length - rest.length = text.length := by simp [split]
  rw [count, split, tokensFrom_skip]
  simp

/-- The scan goes on behind a pair of quotation marks from every place inside it. -/
theorem Scans.of_pastQuote {before after : List Char} {tokens : List Token}
    (inside : (Cursor.mk before after).insideQuotes = true)
    (rest : grammar.Scans (Cursor.mk before after).pastQuote tokens) :
    grammar.Scans ⟨before, after⟩ tokens := by
  induction after generalizing before with
  | nil => simp [Cursor.insideQuotes] at inside
  | cons c after ih =>
      apply Scans.pass (Or.inr inside)
      simp only [Cursor.pastQuote, Cursor.pastQuoteOf] at rest
      split at rest
      · exact rest
      · rename_i different
        apply ih
        · rwa [Cursor.insideQuotes_step (by simpa using different)]
        · exact rest

theorem pastQuote_of_insideQuotes {before after : List Char}
    (inside : (Cursor.mk before after).insideQuotes = true) :
    ∃ c text rest, after = c :: text ++ rest ∧
      (Cursor.mk before after).pastQuote = ⟨(c :: text).reverse ++ before, rest⟩ := by
  induction after generalizing before with
  | nil => simp [Cursor.insideQuotes] at inside
  | cons c after ih =>
      simp only [Cursor.pastQuote, Cursor.pastQuoteOf]
      split
      · exact ⟨c, [], after, rfl, rfl⟩
      · rename_i different
        rw [← Cursor.insideQuotes_step (by simpa using different)] at inside
        rcases ih inside with ⟨d, text, rest, rfl, past⟩
        refine ⟨c, d :: text, rest, rfl, ?_⟩
        simpa [Cursor.pastQuote] using past

theorem scans_tokensFrom (before after : List Char) :
    grammar.Scans ⟨before, after⟩ (grammar.tokensFrom before 0 after) := by
  -- the scan jumps behind tokens and pairs, so the induction is on the length of what is left
  generalize size : after.length = length
  induction length using Nat.strongRecOn generalizing before after with
  | _ length ih =>
      cases after with
      | nil => exact .done before
      | cons c after =>
          have smaller {text rest : List Char} (split : c :: after = c :: text ++ rest) :
              rest.length < length := by
            rw [← size, split]
            simp only [List.length_append, List.length_cons]
            omega
          unfold tokensFrom
          split
          · rename_i none
            exact .pass (Or.inl none) (ih after.length (by rw [← size]; simp) (c :: before) after rfl)
          · rename_i token found
            have start : token.start = ⟨before, c :: after⟩ := by
              rcases tokenAt?_eq_some found with ⟨_, _, _, start, _⟩
              exact start
            rw [start]
            split
            · rename_i inside
              rcases pastQuote_of_insideQuotes inside with ⟨d, text, rest, split, past⟩
              have same : d = c := by simpa using (List.cons.inj split).1.symm
              subst same
              apply Scans.of_pastQuote inside
              rw [past]
              simp only
              rw [tokensFrom_jump grammar before split]
              exact ih rest.length (smaller split) _ rest rfl
            · rename_i outside
              rcases stop_of_tokenAt? found with ⟨d, text, rest, split, stop⟩
              have same : d = c := by simpa using (List.cons.inj split).1.symm
              subst same
              apply Scans.take found (by simpa using outside)
              rw [stop]
              simp only
              rw [tokensFrom_jump grammar before split]
              exact ih rest.length (smaller split) _ rest rfl

theorem scans_tokens (grammar : Grammar) (input : String) :
    grammar.Scans (Cursor.ofText input.toList) (grammar.tokens input) :=
  scans_tokensFrom [] input.toList

/-- The tokens of an input are those that a scan takes from its start. -/
theorem tokens_eq_iff {input : String} {tokens : List Token} :
    grammar.tokens input = tokens ↔ grammar.Scans (Cursor.ofText input.toList) tokens := by
  constructor
  · rintro rfl
    exact grammar.scans_tokens input
  · intro scans
    exact (grammar.scans_tokens input).deterministic scans

/-- Every token of a scan is an occurrence of a declared field outside quotation marks. -/
theorem Scans.occursAt {cursor : Cursor} {tokens : List Token}
    (scans : grammar.Scans cursor tokens) {token : Token} (member : token ∈ tokens) :
    ∃ field ∈ grammar.fields, token.field = field.name ∧
      field.OccursAt token.start token.stop token.value ∧ token.start.insideQuotes = false := by
  induction scans with
  | done => simp at member
  | pass _ _ ih => exact ih member
  | take found outside _ ih =>
      rcases List.mem_cons.mp member with rfl | member
      · rcases tokenAt?_eq_some found with ⟨field, fieldMember, name, rfl, occurs⟩
        exact ⟨field, fieldMember, name, occurs, outside⟩
      · exact ih member

end Grammar

end SearchCommands
