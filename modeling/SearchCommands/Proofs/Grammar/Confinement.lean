import SearchCommands.Proofs.Grammar.Frames
import SearchCommands.Proofs.Grammar.Layout

/-!
# Scans around a pair of quotation marks

What a scan finds in a text does not depend on the inside of a pair of quotation marks in it, but
for one thing: the pair is left over with its inside, or it is the value of one text field.  The
induction follows the scan through the text before the pair; behind the pair nothing differs.
-/

namespace SearchCommands

open Text

namespace Grammar

variable {grammar : Grammar} {frame : Frame}

/-- From a place of a framed text, a scan takes the given entries and leaves the given text
uncovered, both of which can depend on the inside of the pair. -/
def ScansTo (grammar : Grammar) (frame : Frame) (spot : Spot)
    (entries : List Char → List (String × FieldValue)) (uncovered : List Char → List Char) : Prop :=
  ∀ inside, '"' ∉ inside → ∃ tokens, grammar.Scans (spot.cursor frame inside) tokens ∧
    tokens.map Token.entry = entries inside ∧
    Token.uncovered (spot.cursor frame inside) tokens = uncovered inside

/-- How entries and uncovered text can depend on the inside of a pair of quotation marks: the pair
is left over, or a text field has it as its value. -/
inductive Confined (grammar : Grammar) :
    (List Char → List (String × FieldValue)) → (List Char → List Char) → Prop where
  | leftOver (entries : List (String × FieldValue)) (left right : List Char)
      (even : left.count '"' % 2 = 0) :
      Confined grammar (fun _ => entries) (fun inside => left ++ (enclosed inside ++ right))
  | captured (before after : List (String × FieldValue)) (uncovered : List Char) (field : Field)
      (member : field ∈ grammar.fields) (kind : field.kind = .text true) :
      Confined grammar (fun inside => before ++ (field.name, Field.textOf (enclosed inside)) :: after)
        (fun _ => uncovered)

variable {entries : List Char → List (String × FieldValue)} {uncovered : List Char → List Char}

theorem Confined.append (confined : grammar.Confined entries uncovered) {text : List Char}
    (even : text.count '"' % 2 = 0) :
    grammar.Confined entries (fun inside => text ++ uncovered inside) := by
  cases confined with
  | captured before after uncovered field member kind =>
      exact .captured before after (text ++ uncovered) field member kind
  | leftOver entries left right leftEven =>
      have both : (text ++ left).count '"' % 2 = 0 := by
        rw [List.count_append]
        omega
      simpa only [List.append_assoc] using Confined.leftOver entries (text ++ left) right both

theorem Confined.take (confined : grammar.Confined entries uncovered)
    (entry : String × FieldValue) :
    grammar.Confined (fun inside => entry :: entries inside) uncovered := by
  cases confined with
  | leftOver entries left right even => exact .leftOver (entry :: entries) left right even
  | captured before after uncovered field member kind =>
      exact .captured (entry :: before) after uncovered field member kind

/-- Trimming around a pair of quotation marks takes nothing from the pair. -/
theorem exists_trim_pair {left : List Char} (even : left.count '"' % 2 = 0) (right : List Char) :
    ∃ left' right', left'.count '"' % 2 = 0 ∧ ∀ inside,
      trim (left ++ (enclosed inside ++ right)) = left' ++ (enclosed inside ++ right') := by
  rcases exists_blanks left with ⟨blanks, left', rfl, blank, inked⟩
  rcases exists_blanks right.reverse with ⟨blanks', right', split, blank', inked'⟩
  have rightEq : right = right'.reverse ++ blanks'.reverse := by
    rw [← List.reverse_append, ← split, List.reverse_reverse]
  refine ⟨left', right'.reverse, ?_, ?_⟩
  · rwa [List.count_append, blank.count_quote, Nat.zero_add] at even
  · intro inside
    have starts : StartsInked (left' ++ (enclosed inside ++ right'.reverse)) := by
      by_cases empty : left' = []
      · rw [empty, List.nil_append]
        exact (trimmed_enclosed inside).1.append (by simp [enclosed])
      · exact inked.append empty
    have ends : EndsInked (left' ++ (enclosed inside ++ right'.reverse)) := by
      by_cases empty : right' = []
      · rw [empty, List.reverse_nil, List.append_nil]
        exact (trimmed_enclosed inside).2.append (by simp [enclosed])
      · rw [← List.append_assoc]
        apply EndsInked.append _ (by simpa using empty)
        intro c member
        rw [List.getLast?_reverse] at member
        exact inked' c member
    have blankEnd : AllBlank blanks'.reverse :=
      fun c member => blank' c (List.mem_reverse.mp member)
    rw [rightEq, ← trim_eq blank ⟨starts, ends⟩ blankEnd]
    simp

theorem Confined.trim (confined : grammar.Confined entries uncovered) :
    grammar.Confined entries (fun inside => Text.trim (uncovered inside)) := by
  cases confined with
  | captured before after uncovered field member kind =>
      exact .captured before after (Text.trim uncovered) field member kind
  | leftOver entries left right even =>
      rcases exists_trim_pair even right with ⟨left', right', even', trimmed⟩
      simpa only [trimmed] using Confined.leftOver entries left' right' even'

/-- Passing over some text adds it to the uncovered text. -/
theorem ScansTo.pass {spot next : Spot} (onwards : grammar.ScansTo frame next entries uncovered)
    (text : List Char → List Char)
    (moves : ∀ inside, (spot.cursor frame inside).after =
        text inside ++ (next.cursor frame inside).after ∧
      (next.cursor frame inside).before =
        (text inside).reverse ++ (spot.cursor frame inside).before)
    (passes : ∀ inside, '"' ∉ inside → ∀ tokens,
      grammar.Scans (next.cursor frame inside) tokens →
        grammar.Scans (spot.cursor frame inside) tokens) :
    grammar.ScansTo frame spot entries (fun inside => text inside ++ uncovered inside) := by
  intro inside plain
  rcases onwards inside plain with ⟨tokens, scans, entriesEq, uncoveredEq⟩
  refine ⟨tokens, passes inside plain tokens scans, entriesEq, ?_⟩
  rcases moves inside with ⟨afterEq, beforeEq⟩
  change _ = text inside ++ uncovered inside
  rw [← uncoveredEq]
  generalize spot.cursor frame inside = start at afterEq beforeEq
  generalize next.cursor frame inside = stop at scans afterEq beforeEq
  rcases start with ⟨before, after⟩
  rcases stop with ⟨before', after'⟩
  simp only at afterEq beforeEq
  subst afterEq beforeEq
  exact scans.uncovered_append

/-- Taking a token adds its entry. -/
theorem ScansTo.take {spot stop : Spot} (onwards : grammar.ScansTo frame stop entries uncovered)
    (field : String) (value : List Char → FieldValue)
    (outside : ∀ inside, '"' ∉ inside → (spot.cursor frame inside).insideQuotes = false)
    (found : ∀ inside, '"' ∉ inside → grammar.tokenAt? (spot.cursor frame inside) =
      some ⟨field, spot.cursor frame inside, stop.cursor frame inside, value inside⟩) :
    grammar.ScansTo frame spot (fun inside => (field, value inside) :: entries inside)
      uncovered := by
  intro inside plain
  rcases onwards inside plain with ⟨tokens, scans, entriesEq, uncoveredEq⟩
  refine ⟨_, .take (found inside plain) (outside inside plain) scans, ?_, ?_⟩
  · rw [List.map_cons, entriesEq]
    rfl
  · rw [Token.uncovered, textTo_self, List.nil_append, uncoveredEq]

/-- A pair of quotation marks at which no token starts is passed over. -/
theorem Scans.pass_enclosed {before inside rest : List Char} {tokens : List Token}
    (even : before.count '"' % 2 = 0) (plain : '"' ∉ inside)
    (nothing : grammar.tokenAt? ⟨before, enclosed inside ++ rest⟩ = none)
    (scans : grammar.Scans ⟨(enclosed inside).reverse ++ before, rest⟩ tokens) :
    grammar.Scans ⟨before, enclosed inside ++ rest⟩ tokens := by
  have noGap : AllBlank ([] : List Char) := AllBlank.nil
  refine Scans.pass_piece even noGap (Or.inr ⟨inside, plain, rfl⟩) ?_ scans
  intro left right split
  rw [List.nil_eq_append_iff] at split
  rw [split.1, split.2]
  exact nothing

/-- A token ends behind its start. -/
theorem length_stop_lt {cursor : Cursor} {token : Token}
    (found : grammar.tokenAt? cursor = some token) :
    token.stop.after.length < cursor.after.length := by
  rcases stop_of_tokenAt? found with ⟨c, text, rest, split, stop⟩
  rw [stop, split]
  simp only [List.length_append, List.length_cons]
  omega

/-- Whether a place behind the pair is inside another one does not depend on the pair. -/
theorem insideQuotes_behind {inside : List Char} (plain : '"' ∉ inside) (text after : List Char) :
    ((Spot.behind text after).cursor frame inside).insideQuotes =
      ((Spot.behind text after).cursor frame []).insideQuotes := by
  simp [Cursor.insideQuotes, Spot.cursor, enclosed, List.count_append,
    List.count_eq_zero.mpr plain]

/-- Behind the pair, scans do not depend on it. -/
theorem IsQuoteFree.scansTo_behind (quoteFree : grammar.IsQuoteFree) {text after : List Char}
    (outside : (Spot.behind text after).IsOutside frame) :
    ∃ entries uncovered, grammar.ScansTo frame (.behind text after)
      (fun _ => entries) (fun _ => uncovered) := by
  -- the frame keeps the text behind the pair, so a place stays behind it while less text follows
  generalize size : after.length = length
  induction length using Nat.strongRecOn generalizing text after with
  | _ length ih =>
      cases after with
      | nil => exact ⟨[], [], fun inside _ => ⟨[], .done _, rfl, rfl⟩⟩
      | cons c after =>
          have next : (Spot.behind (c :: text) after).IsOutside frame := by
            simp only [Spot.IsOutside] at outside ⊢
            simp [outside]
          have shorter : after.length < length := by
            rw [← size]
            exact Nat.lt_succ_self _
          have passed (nothing : ∀ inside, '"' ∉ inside →
              grammar.tokenAt? ((Spot.behind text (c :: after)).cursor frame inside) = none ∨
                ((Spot.behind text (c :: after)).cursor frame inside).insideQuotes = true) :
              ∃ entries uncovered, grammar.ScansTo frame (.behind text (c :: after))
                (fun _ => entries) (fun _ => uncovered) := by
            rcases ih after.length shorter next rfl with ⟨entries, uncovered, onwards⟩
            refine ⟨entries, c :: uncovered, ?_⟩
            refine onwards.pass (fun _ => [c]) (fun _ => ⟨rfl, rfl⟩) ?_
            intro inside plain tokens scans
            exact .pass (nothing inside plain) scans
          cases open? : ((Spot.behind text (c :: after)).cursor frame []).insideQuotes with
          | true =>
              apply passed
              intro inside plain
              exact Or.inr ((insideQuotes_behind plain _ _).trans open?)
          | false =>
              cases quoteFree.findsAlike outside with
              | nothing none => exact passed fun inside plain => Or.inl (none inside plain)
              | pair _ _ _ _ _ ahead _ _ => exact absurd ahead (by simp [Spot.IsAhead])
              | token field stop value stopOutside side found =>
                  cases stop with
                  | ahead => exact absurd (side.mp trivial) (by simp [Spot.IsAhead])
                  | behind text' after' =>
                      have later := length_stop_lt (found [] (by simp))
                      simp only [Spot.cursor, size] at later
                      rcases ih after'.length later stopOutside rfl with
                        ⟨entries, uncovered, onwards⟩
                      refine ⟨(field.name, value) :: entries, uncovered, ?_⟩
                      refine onwards.take field.name (fun _ => value) ?_ found
                      intro inside plain
                      exact (insideQuotes_behind plain _ _).trans open?

/-- Before the pair, a character at which no token starts is passed over. -/
theorem ScansTo.pass_character {before text : List Char} {c : Char}
    (onwards : grammar.ScansTo frame (.ahead (c :: before) text) entries uncovered)
    (none : ∀ inside, '"' ∉ inside →
      grammar.tokenAt? ((Spot.ahead before (c :: text)).cursor frame inside) = none) :
    grammar.ScansTo frame (.ahead before (c :: text)) entries
      (fun inside => [c] ++ uncovered inside) := by
  refine onwards.pass (fun _ => [c]) (fun _ => ⟨rfl, rfl⟩) ?_
  intro inside plain tokens scans
  exact .pass (Or.inl (none inside plain)) scans

/-- Before the pair, another pair at which no token starts is passed over as a whole. -/
theorem ScansTo.pass_pair {before own rest : List Char} (even : before.count '"' % 2 = 0)
    (ownPlain : '"' ∉ own)
    (onwards : grammar.ScansTo frame (.ahead ((enclosed own).reverse ++ before) rest) entries
      uncovered)
    (none : ∀ inside, '"' ∉ inside →
      grammar.tokenAt? ((Spot.ahead before (enclosed own ++ rest)).cursor frame inside) = none) :
    grammar.ScansTo frame (.ahead before (enclosed own ++ rest)) entries
      (fun inside => enclosed own ++ uncovered inside) := by
  refine onwards.pass (fun _ => enclosed own) ?_ ?_
  · exact fun inside => ⟨by simp [Spot.cursor], rfl⟩
  · intro inside plain tokens scans
    have here := none inside plain
    simp only [Spot.cursor, List.append_assoc] at here ⊢
    exact Scans.pass_enclosed even ownPlain here scans

/-- If no token starts at the pair, it is left over with its inside. -/
theorem IsQuoteFree.exists_leftOver (quoteFree : grammar.IsQuoteFree)
    (even : frame.before.count '"' % 2 = 0)
    (none : ∀ inside, '"' ∉ inside →
      grammar.tokenAt? ((Spot.ahead frame.before []).cursor frame inside) = none) :
    ∃ entries uncovered, grammar.ScansTo frame (.ahead frame.before []) (fun _ => entries)
      (fun inside => enclosed inside ++ uncovered) := by
  have behind : (Spot.behind [] frame.after).IsOutside frame := rfl
  rcases quoteFree.scansTo_behind behind with ⟨entries, uncovered, onwards⟩
  refine ⟨entries, uncovered, onwards.pass enclosed ?_ ?_⟩
  · exact fun inside => ⟨rfl, by simp [Spot.cursor]⟩
  · intro inside plain tokens scans
    exact Scans.pass_enclosed even plain (none inside plain) scans

/-- A scan up to the pair leaves it over or captures it. -/
theorem IsQuoteFree.scansTo_ahead (quoteFree : grammar.IsQuoteFree)
    (even : frame.before.count '"' % 2 = 0) {before text : List Char}
    (outside : (Spot.ahead before text).IsOutside frame) :
    ∃ entries uncovered, grammar.Confined entries uncovered ∧
      grammar.ScansTo frame (.ahead before text) entries uncovered := by
  -- a token can take more than one character, so the induction is on how many there are
  generalize size : text.length = length
  induction length using Nat.strongRecOn generalizing before text with
  | _ length ih =>
      have evenHere : before.count '"' % 2 = 0 := by
        rcases outside with ⟨whole, textEven⟩
        rw [whole, List.count_append, List.count_reverse] at even
        omega
      have apart (inside : List Char) (_ : '"' ∉ inside) :=
        Cursor.insideQuotes_of_even evenHere (text ++ (enclosed inside ++ frame.after))
      cases quoteFree.findsAlike outside with
      | token field stop value stopOutside side found =>
          cases stop with
          | behind => exact absurd (side.mpr trivial) (by simp [Spot.IsAhead])
          | ahead before' text' =>
              have later := length_stop_lt (found [] (by simp))
              simp only [Spot.cursor, List.length_append, size] at later
              have shorter : text'.length < length := by omega
              rcases ih text'.length shorter stopOutside rfl with
                ⟨entries, uncovered, confined, onwards⟩
              exact ⟨_, _, confined.take _, onwards.take field.name (fun _ => value) apart found⟩
      | pair field stop member kind stopOutside ahead behind found =>
          cases stop with
          | ahead => exact absurd trivial behind
          | behind text' after' =>
              rcases quoteFree.scansTo_behind stopOutside with ⟨entries, uncovered, onwards⟩
              exact ⟨_, _, .captured [] entries uncovered field member kind,
                onwards.take field.name _ apart found⟩
      | nothing none =>
          cases text with
          | nil =>
              have whole : before = frame.before := outside.1.symm
              subst whole
              rcases quoteFree.exists_leftOver even none with ⟨entries, uncovered, scansTo⟩
              exact ⟨_, _, .leftOver entries [] uncovered rfl, scansTo⟩
          | cons c text =>
              by_cases quote : c = '"'
              · subst quote
                rcases outside.exists_pair with ⟨own, rest, ownPlain, paired, next⟩
                rw [paired] at size none ⊢
                have ownEven := IsPiece.even (Or.inr ⟨own, ownPlain, rfl⟩)
                have shorter : rest.length < length := by
                  rw [← size, List.length_append, enclosed, List.length_cons]
                  omega
                rcases ih rest.length shorter next rfl with ⟨entries, uncovered, confined, onwards⟩
                exact ⟨_, _, confined.append ownEven, onwards.pass_pair evenHere ownPlain none⟩
              · have next := outside.step quote
                have shorter : text.length < length := by
                  rw [← size]
                  exact Nat.lt_succ_self _
                rcases ih text.length shorter next rfl with ⟨entries, uncovered, confined, onwards⟩
                have noQuote : [c].count '"' % 2 = 0 := by
                  rw [List.count_cons_of_ne quote]
                  rfl
                exact ⟨_, _, confined.append noQuote, onwards.pass_character none⟩

end Grammar

end SearchCommands
