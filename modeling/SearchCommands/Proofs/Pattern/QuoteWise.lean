import SearchCommands.Proofs.Field.Spelling
import SearchCommands.Proofs.Pattern.Frames

/-!
# Patterns that read quotation marks in pairs

A quote-wise pattern reads a quotation mark only as part of a text in quotation marks.  From a place
outside of all pairs it reads alike whatever stands in one of the pairs: a way ends before that
pair, or it takes the pair as a whole.
-/

namespace SearchCommands

open Text FieldPattern

/-- The pattern reads quotation marks in pairs only. -/
inductive Pattern.QuoteWise : Pattern → Prop where
  | empty : QuoteWise .empty
  | inputStart : QuoteWise .inputStart
  | inputEnd : QuoteWise .inputEnd
  | wordEdge : QuoteWise .wordEdge
  | one {set : CharSet} (avoids : set.contains '"' = false) : QuoteWise (.one set)
  | oneOrMore {set : CharSet} (avoids : set.contains '"' = false) : QuoteWise (.oneOrMore set)
  | anyNumber {set : CharSet} (avoids : set.contains '"' = false) : QuoteWise (.anyNumber set)
  | literal {text : List Char} (avoids : '"' ∉ text) : QuoteWise (.literal text)
  | quotedText : QuoteWise FieldPattern.quotedText
  | andThen {first second : Pattern} (left : QuoteWise first) (right : QuoteWise second) :
      QuoteWise (.andThen first second)
  | orElse {first second : Pattern} (left : QuoteWise first) (right : QuoteWise second) :
      QuoteWise (.orElse first second)
  | optional {body : Pattern} (inner : QuoteWise body) : QuoteWise (.optional body)
  | grouped {body : Pattern} (inner : QuoteWise body) : QuoteWise (.grouped body)
  | anyCase {body : Pattern} (inner : QuoteWise body) : QuoteWise (.anyCase body)
  | captured {name : String} {body : Pattern} (inner : QuoteWise body) :
      QuoteWise (.captured name body)

variable {frame : Frame}

namespace Spot

/-- A step over a character that is no quotation mark stays outside of the pairs. -/
theorem IsOutside.step {before text : List Char} {c : Char}
    (outside : (ahead before (c :: text)).IsOutside frame) (different : c ≠ '"') :
    (ahead (c :: before) text).IsOutside frame := by
  rcases outside with ⟨whole, even⟩
  refine ⟨by simp [whole], ?_⟩
  rwa [List.count_cons_of_ne different] at even

/-- A quotation mark before the pair opens another pair, and behind that one no pair is open. -/
theorem IsOutside.exists_pair {before text : List Char}
    (outside : (ahead before ('"' :: text)).IsOutside frame) :
    ∃ own rest, '"' ∉ own ∧ '"' :: text = enclosed own ++ rest ∧
      (ahead ((enclosed own).reverse ++ before) rest).IsOutside frame := by
  rcases outside with ⟨whole, even⟩
  have another : '"' ∈ text := by
    rw [← List.count_pos_iff]
    rw [List.count_cons_self] at even
    omega
  rcases List.eq_append_cons_of_mem another with ⟨own, rest, rfl, plain⟩
  refine ⟨own, rest, plain, by simp [enclosed], by simp [whole, enclosed], ?_⟩
  simp only [List.count_cons_self, List.count_append, List.count_eq_zero.mpr plain] at even
  omega

/-- The places that are reached over characters other than quotation marks. -/
theorem exists_placesOf {accepts : Char → Bool} (avoids : accepts '"' = false)
    {before text : List Char} (outside : (ahead before text).IsOutside frame) :
    ∃ spots : List Spot, (∀ spot ∈ spots, spot.IsOutside frame) ∧
      ∀ inside, Cursor.placesOf accepts before (text ++ (enclosed inside ++ frame.after)) =
        spots.map (cursor frame inside) := by
  induction text generalizing before with
  | nil =>
      refine ⟨[ahead before []], ?_, ?_⟩
      · intro spot member
        rw [List.mem_singleton.mp member]
        exact outside
      · intro inside
        simp [Cursor.placesOf, enclosed, avoids, cursor]
  | cons c text ih =>
      cases accepted : accepts c with
      | false =>
          refine ⟨[ahead before (c :: text)], ?_, ?_⟩
          · intro spot member
            rw [List.mem_singleton.mp member]
            exact outside
          · intro inside
            simp [Cursor.placesOf, accepted, cursor]
      | true =>
          have different : c ≠ '"' := by
            rintro rfl
            rw [avoids] at accepted
            cases accepted
          rcases ih (outside.step different) with ⟨spots, allOutside, places⟩
          refine ⟨ahead before (c :: text) :: spots, ?_, ?_⟩
          · intro spot member
            rcases List.mem_cons.mp member with rfl | member
            · exact outside
            · exact allOutside spot member
          · intro inside
            simp only [List.cons_append, Cursor.placesOf, accepted, if_true, places inside,
              List.map_cons]
            rfl

/-- The place that is reached over given characters other than quotation marks. -/
theorem exists_read? {same : Char → Char → Bool} {expected : List Char}
    (avoids : ∀ c ∈ expected, same c '"' = false) {before text : List Char}
    (outside : (ahead before text).IsOutside frame) :
    ∃ found : Option Spot, (∀ spot ∈ found, spot.IsOutside frame) ∧
      ∀ inside, ((ahead before text).cursor frame inside).read? same expected =
        found.map (cursor frame inside) := by
  induction expected generalizing before text with
  | nil =>
      refine ⟨some (ahead before text), ?_, fun _ => rfl⟩
      intro spot member
      rw [← Option.some.inj member]
      exact outside
  | cons c expected ih =>
      have nothing : ∀ spot ∈ (none : Option Spot), spot.IsOutside frame := by
        intro spot member
        cases member
      cases text with
      | nil =>
          refine ⟨none, nothing, ?_⟩
          intro inside
          simp [cursor, enclosed, Cursor.read?, avoids c (by simp)]
      | cons d text =>
          cases agrees : same c d with
          | false =>
              refine ⟨none, nothing, ?_⟩
              intro inside
              simp [cursor, Cursor.read?, agrees]
          | true =>
              have different : d ≠ '"' := by
                rintro rfl
                rw [avoids c (by simp)] at agrees
                cases agrees
              rcases ih (fun e member => avoids e (List.mem_cons_of_mem _ member))
                (outside.step different) with ⟨found, foundOutside, reads⟩
              refine ⟨found, foundOutside, ?_⟩
              intro inside
              rw [← reads inside]
              simp [cursor, Cursor.read?, agrees]

end Spot

namespace Pattern

/-- Only a quotation mark is read as one, with letter case or without. -/
theorem quote_agrees_iff (folding : Bool) {c : Char} :
    (if folding then sameLetter else (· == ·)) '"' c = true ↔ c = '"' := by
  cases folding with
  | true =>
      constructor
      · exact eq_of_sameLetter_caseless isCaseless_quote
      · rintro rfl
        exact sameLetter_refl _
  | false => exact beq_iff_eq.trans eq_comm

theorem not_agrees_quote (folding : Bool) {c : Char} (different : c ≠ '"') :
    (if folding then sameLetter else (· == ·)) c '"' = false := by
  rw [← Bool.not_eq_true]
  intro agrees
  apply different
  rw [← quote_agrees_iff folding]
  cases folding with
  | true =>
      change sameLetter '"' c = true
      rw [sameLetter_comm]
      exact agrees
  | false => exact beq_iff_eq.mpr (beq_iff_eq.mp agrees).symm

theorem ways_quote (folding : Bool) (before rest : List Char) :
    (literal ['"']).ways folding ⟨before, '"' :: rest⟩ = [⟨⟨'"' :: before, rest⟩, []⟩] := by
  have agrees := (quote_agrees_iff folding (c := '"')).mpr rfl
  simp [ways, Cursor.read?, agrees]

theorem ways_quote_of_ne (folding : Bool) {before after : List Char}
    (different : after.head? ≠ some '"') :
    (literal ['"']).ways folding ⟨before, after⟩ = [] := by
  cases after with
  | nil => rfl
  | cons c rest =>
      have disagrees : ¬ (if folding then sameLetter else (· == ·)) '"' c = true := by
        rw [quote_agrees_iff]
        simpa using different
      simp [ways, Cursor.read?, disagrees]

/-- Of the places up to the next quotation mark, the last one alone is before the mark. -/
theorem placesOf_betweenQuotes {inside : List Char} (plain : '"' ∉ inside)
    (before rest : List Char) :
    ∃ others, Cursor.placesOf CharSet.betweenQuotes.contains before (inside ++ '"' :: rest) =
        others ++ [⟨inside.reverse ++ before, '"' :: rest⟩] ∧
      ∀ place ∈ others, place.after.head? ≠ some '"' := by
  induction inside generalizing before with
  | nil => exact ⟨[], by simp [Cursor.placesOf, CharSet.contains], by simp⟩
  | cons c inside ih =>
      rw [List.mem_cons, not_or] at plain
      rcases ih plain.2 (c :: before) with ⟨others, places, apart⟩
      have accepted : CharSet.betweenQuotes.contains c = true := by
        simpa [CharSet.contains] using Ne.symm plain.1
      refine ⟨⟨before, c :: (inside ++ '"' :: rest)⟩ :: others, ?_, ?_⟩
      · simp [Cursor.placesOf, accepted, places]
      · intro place member
        rcases List.mem_cons.mp member with rfl | member
        · simpa using Ne.symm plain.1
        · exact apart place member

/-- A text in quotation marks is read up to the second mark, in one way. -/
theorem ways_quotedText (folding : Bool) {inside : List Char} (plain : '"' ∉ inside)
    (before rest : List Char) :
    quotedText.ways folding ⟨before, enclosed inside ++ rest⟩ =
      [⟨⟨(enclosed inside).reverse ++ before, rest⟩, []⟩] := by
  rcases placesOf_betweenQuotes plain ('"' :: before) rest with ⟨others, places, apart⟩
  have text : enclosed inside ++ rest = '"' :: (inside ++ '"' :: rest) := by simp [enclosed]
  have noOthers : (others.reverse.map fun place => Way.mk place []).flatMap (fun way =>
      ((literal ['"']).ways folding way.stop).map way.andThen) = [] := by
    rw [List.flatMap_eq_nil_iff]
    intro way member
    rcases List.mem_map.mp member with ⟨⟨before', after'⟩, placeMember, rfl⟩
    have different := apart _ (List.mem_reverse.mp placeMember)
    simp only [ways_quote_of_ne folding different, List.map_nil]
  rw [text, quotedText, inOrder, inOrder, inOrder, ways, ways_quote, List.flatMap_singleton, ways,
    ways, Cursor.places]
  simp only [places, List.reverse_append, List.reverse_singleton, List.singleton_append,
    List.map_cons, List.flatMap_cons, noOthers, List.append_nil, ways_quote, List.map_nil]
  simp [Way.andThen, enclosed]

theorem ways_quotedText_of_ne (folding : Bool) {before after : List Char}
    (different : after.head? ≠ some '"') : quotedText.ways folding ⟨before, after⟩ = [] := by
  rw [quotedText, inOrder, ways, ways_quote_of_ne folding different]
  rfl

/-- A text in quotation marks that starts before the pair ends before it, unless it is the pair. -/
theorem readsAlike_quotedText (folding : Bool) {before text : List Char}
    (outside : (Spot.ahead before text).IsOutside frame) :
    ReadsAlike frame quotedText folding (.ahead before text) := by
  cases text with
  | nil =>
      refine readsAlike_of_spots [.behind [] frame.after] ?_ ?_
      · intro stop member
        rw [List.mem_singleton.mp member]
        rfl
      · intro inside plain
        have whole : frame.before = before := outside.1
        exact whole ▸ ways_quotedText folding plain before frame.after
  | cons c text =>
      by_cases quote : c = '"'
      · subst quote
        rcases outside.exists_pair with ⟨own, rest, plain, paired, next⟩
        rw [paired]
        refine readsAlike_of_spots [.ahead ((enclosed own).reverse ++ before) rest] ?_ ?_
        · intro stop member
          rw [List.mem_singleton.mp member]
          exact next
        · intro inside _
          rw [Spot.cursor, List.append_assoc]
          exact ways_quotedText folding plain before _
      · refine readsAlike_of_spots [] (by simp) ?_
        intro inside _
        exact ways_quotedText_of_ne folding (by simpa using quote)

section Ahead

variable {before text : List Char} {set : CharSet} (folding : Bool)
  (outside : (Spot.ahead before text).IsOutside frame)

include outside

theorem readsAlike_inputEnd : ReadsAlike frame .inputEnd folding (.ahead before text) := by
  refine readsAlike_of_test outside false ?_
  intro inside
  simp [ways, Spot.cursor, enclosed]

/-- A word ends before the pair as it does before a mark alone. -/
theorem readsAlike_wordEdge : ReadsAlike frame .wordEdge folding (.ahead before text) := by
  refine readsAlike_of_test outside (Cursor.mk before (text ++ enclosed [])).atWordEdge ?_
  intro inside
  have same : ((Spot.ahead before text).cursor frame inside).atWordEdge =
      (Cursor.mk before (text ++ enclosed [])).atWordEdge := by
    cases text <;> rfl
  rw [ways, same]

theorem readsAlike_one (avoids : set.contains '"' = false) :
    ReadsAlike frame (.one set) folding (.ahead before text) := by
  cases text with
  | nil =>
      refine readsAlike_of_spots [] (by simp) ?_
      intro inside _
      simp [ways, Spot.cursor, enclosed, avoids]
  | cons c text =>
      cases accepted : set.contains c with
      | false =>
          refine readsAlike_of_spots [] (by simp) ?_
          intro inside _
          simp [ways, Spot.cursor, accepted]
      | true =>
          have different : c ≠ '"' := by
            rintro rfl
            rw [avoids] at accepted
            cases accepted
          refine readsAlike_of_spots [.ahead (c :: before) text] ?_ ?_
          · intro stop member
            rw [List.mem_singleton.mp member]
            exact outside.step different
          · intro inside _
            simp [ways, Spot.cursor, accepted]

theorem readsAlike_anyNumber (avoids : set.contains '"' = false) :
    ReadsAlike frame (.anyNumber set) folding (.ahead before text) := by
  rcases Spot.exists_placesOf avoids outside with ⟨spots, spotsOutside, places⟩
  refine readsAlike_of_spots spots.reverse ?_ ?_
  · intro stop member
    exact spotsOutside stop (List.mem_reverse.mp member)
  · intro inside _
    simp only [ways, Cursor.places, Spot.cursor, places inside, List.map_reverse]

theorem readsAlike_oneOrMore (avoids : set.contains '"' = false) :
    ReadsAlike frame (.oneOrMore set) folding (.ahead before text) := by
  rcases Spot.exists_placesOf avoids outside with ⟨spots, spotsOutside, places⟩
  refine readsAlike_of_spots spots.tail.reverse ?_ ?_
  · intro stop member
    exact spotsOutside stop (List.mem_of_mem_tail (List.mem_reverse.mp member))
  · intro inside _
    simp only [ways, Cursor.places, Spot.cursor, places inside, List.map_reverse, List.map_tail]

theorem readsAlike_literal {expected : List Char} (avoids : '"' ∉ expected) :
    ReadsAlike frame (.literal expected) folding (.ahead before text) := by
  have disagrees : ∀ c ∈ expected, (if folding then sameLetter else (· == ·)) c '"' = false :=
    fun c member => not_agrees_quote folding fun same => avoids (same ▸ member)
  rcases Spot.exists_read? disagrees outside with ⟨found, foundOutside, reads⟩
  refine readsAlike_of_spots found.toList ?_ ?_
  · exact fun stop member => foundOutside stop (Option.mem_toList.mp member)
  · intro inside _
    simp only [ways, reads inside, Option.toList_map]

end Ahead

/-- Only the places before the pair have to be looked at. -/
theorem readsAlike_of_ahead {pattern : Pattern} {folding : Bool} {spot : Spot}
    (outside : spot.IsOutside frame)
    (ahead : ∀ {before text}, (Spot.ahead before text).IsOutside frame →
      ReadsAlike frame pattern folding (.ahead before text)) :
    ReadsAlike frame pattern folding spot := by
  cases spot with
  | ahead before text => exact ahead outside
  | behind text after => exact readsAlike_behind pattern folding outside

/-- A quote-wise pattern reads alike from every place outside of the pairs. -/
theorem QuoteWise.readsAlike {pattern : Pattern} (quoteWise : pattern.QuoteWise) (folding : Bool)
    {spot : Spot} (outside : spot.IsOutside frame) : ReadsAlike frame pattern folding spot := by
  induction quoteWise generalizing folding spot with
  | empty => exact readsAlike_of_test outside true fun _ => rfl
  | inputStart =>
      apply readsAlike_of_ahead outside
      exact fun {before _} here => readsAlike_of_test here before.isEmpty fun _ => rfl
  | inputEnd => exact readsAlike_of_ahead outside (readsAlike_inputEnd folding)
  | wordEdge => exact readsAlike_of_ahead outside (readsAlike_wordEdge folding)
  | one avoids =>
      exact readsAlike_of_ahead outside fun here => readsAlike_one folding here avoids
  | oneOrMore avoids =>
      exact readsAlike_of_ahead outside fun here => readsAlike_oneOrMore folding here avoids
  | anyNumber avoids =>
      exact readsAlike_of_ahead outside fun here => readsAlike_anyNumber folding here avoids
  | literal avoids =>
      exact readsAlike_of_ahead outside fun here => readsAlike_literal folding here avoids
  | quotedText => exact readsAlike_of_ahead outside (readsAlike_quotedText folding)
  | andThen _ _ ihFirst ihSecond =>
      exact (ihFirst folding outside).andThen fun stop stopOutside => ihSecond folding stopOutside
  | orElse _ _ ihFirst ihSecond =>
      exact (ihFirst folding outside).orElse (ihSecond folding outside)
  | optional _ ih =>
      have nothing : ReadsAlike frame .empty folding spot :=
        readsAlike_of_test outside true fun _ => rfl
      exact (ih folding outside).orElse nothing
  | grouped _ ih => exact ih folding outside
  | anyCase _ ih => exact ih true outside
  | captured _ ih => exact (ih folding outside).captured outside

end Pattern

end SearchCommands
