import SearchCommands.Proofs.Grammar.Positional
import SearchCommands.Proofs.Grammar.Soundness

/-!
# No match is missed

A scan goes on behind every token, and behind the pair if a match starts inside quotation marks.  So
one might fear that it steps over a place where a field matches.  It does not: a place of the text is
passed over with nothing there, or it is inside quotation marks, or it stands in a token
(`Grammar.Scans.covers_or_passes`, by induction on the scan).  So the captures are the matches
outside quotation marks that are found from left to right, and no other match fits between them.
-/

namespace SearchCommands

open Text

namespace Cursor

variable {start first second : Cursor}

/-- Of two places that are reached from one, the second one is reached from the first one or stands
before it. -/
theorem Reaches.reaches_or_lt (toFirst : start.Reaches first) (toSecond : start.Reaches second) :
    first.Reaches second ∨ second.offset < first.offset := by
  rcases toFirst with ⟨text, afterEq, beforeEq⟩
  rcases toSecond with ⟨text', afterEq', beforeEq'⟩
  by_cases order : byteLength text ≤ byteLength text'
  · rcases split_of_byteLength_le (afterEq.symm.trans afterEq') order with ⟨middle, rfl, rest⟩
    left
    exact ⟨middle, rest, by simp [beforeEq, beforeEq']⟩
  · right
    simp only [offset, beforeEq, beforeEq', byteLength_append, byteLength_reverse]
    omega

/-- A place that is reached from another one is this place, or it is reached from the next one. -/
theorem Reaches.eq_or_step {before after : List Char} {c : Char} {place : Cursor}
    (reaches : Reaches ⟨before, c :: after⟩ place) :
    place = ⟨before, c :: after⟩ ∨ Reaches ⟨c :: before, after⟩ place := by
  rcases place with ⟨placeBefore, placeAfter⟩
  rcases reaches with ⟨text, afterEq, beforeEq⟩
  cases text with
  | nil =>
      left
      simp_all
  | cons d text =>
      simp only [List.cons_append, List.cons.injEq] at afterEq
      rcases afterEq with ⟨rfl, rfl⟩
      right
      exact ⟨text, rfl, by simpa using beforeEq⟩

end Cursor

namespace Field

/-- The pattern of the field matches in the text after so many bytes of it. -/
def MatchesAt (field : Field) (text : List Char) (offset : Nat) : Prop :=
  ∃ left right, text = left ++ right ∧ offset = byteLength left ∧
    field.pattern.match? ⟨left.reverse, right⟩ ≠ none

/-- The match of the field at a place of the text is the capture. -/
def HasMatch (field : Field) (text : List Char) (capture : Capture) : Prop :=
  ∃ left right, text = left ++ right ∧ capture.start = byteLength left ∧
    (field.tokenAt? ⟨left.reverse, right⟩).map Token.capture = some capture

end Field

namespace Grammar

variable {grammar : Grammar}

theorem tokenAt?_of_nothing_after (before : List Char) : grammar.tokenAt? ⟨before, []⟩ = none :=
  tokenAt?_of_allBlank AllBlank.nil

/-- A place behind the start of a scan is passed over, because nothing stands there or because it is
inside quotation marks, or one of the tokens covers it. -/
theorem Scans.covers_or_passes {cursor place : Cursor} {tokens : List Token}
    (scans : grammar.Scans cursor tokens) (reaches : cursor.Reaches place) :
    grammar.tokenAt? place = none ∨ place.insideQuotes = true ∨
      ∃ token ∈ tokens, token.start.offset ≤ place.offset ∧ place.offset < token.stop.offset := by
  induction scans with
  | done before =>
      have empty : place.after = [] :=
        List.eq_nil_of_length_eq_zero (Nat.le_zero.mp reaches.length_le)
      left
      rcases place with ⟨placeBefore, placeAfter⟩
      simp only at empty
      rw [empty]
      exact tokenAt?_of_nothing_after placeBefore
  | pass nothing _ ih =>
      rcases reaches.eq_or_step with rfl | onwards
      · exact nothing.imp_right Or.inl
      · exact ih onwards
  | @take cursor token tokens found _ _ ih =>
      rcases tokenAt?_eq_some found with ⟨field, _, _, start, occurs⟩
      rcases (reaches_of_occursAt occurs).reaches_or_lt reaches with onwards | inside
      · refine (ih onwards).imp_right (Or.imp_right ?_)
        rintro ⟨later, member, covers⟩
        exact ⟨later, List.mem_cons_of_mem _ member, covers⟩
      · right
        right
        refine ⟨token, List.mem_cons_self, ?_, inside⟩
        rw [start]
        exact reaches.offset_le

/-- A place outside quotation marks where a field matches stands in a capture. -/
theorem exists_capture_of_matchesAt {field : Field} (member : field ∈ grammar.fields)
    {input : String} {offset : Nat} (here : field.MatchesAt input.toList offset)
    (outside : OutsideQuotes input.toList offset) :
    ∃ capture ∈ grammar.captures input, capture.start ≤ offset ∧ offset < capture.stop := by
  rcases here with ⟨left, right, split, rfl, matching⟩
  have reaches : (Cursor.ofText input.toList).Reaches ⟨left.reverse, right⟩ :=
    ⟨left, split, by simp [Cursor.ofText]⟩
  rcases (grammar.scans_tokens input).covers_or_passes reaches with nothing | inside | covered
  · exfalso
    apply matching
    rw [Field.match?_eq_none_iff (isProper member)]
    rw [tokenAt?_eq_findSome?, List.findSome?_eq_none_iff] at nothing
    exact nothing field (mem_tried_iff.mpr member)
  · exfalso
    have notInside : (Cursor.mk left.reverse right).insideQuotes = false := by
      apply Cursor.insideQuotes_eq_false_iff_outsideQuotes.mpr
      rwa [List.reverse_reverse, ← split, byteLength_reverse]
    rw [inside] at notInside
    cases notInside
  · rcases covered with ⟨token, tokenMember, start, stop⟩
    simp only [Cursor.offset, byteLength_reverse] at start stop
    exact ⟨token.capture, List.mem_map_of_mem tokenMember, start, stop⟩

/-- A capture starts outside quotation marks and is the match of its field there. -/
theorem hasMatch_of_mem_captures {input : String} {capture : Capture}
    (member : capture ∈ grammar.captures input) :
    OutsideQuotes input.toList capture.start ∧
      ∃ field ∈ grammar.fields, capture.field = field.name ∧
        field.HasMatch input.toList capture := by
  rcases List.mem_map.mp member with ⟨token, tokenMember, rfl⟩
  have scans := grammar.scans_tokens input
  rcases scans.occursAt tokenMember with ⟨_, _, _, _, outside⟩
  rcases (scans.reaches tokenMember).1 with ⟨left, split, before⟩
  have found := scans.tokenAt?_eq tokenMember
  rcases token with ⟨name, ⟨startBefore, startAfter⟩, stop, value⟩
  simp only [Cursor.ofText, List.append_nil] at split before outside found
  subst before
  constructor
  · have outsideHere := Cursor.insideQuotes_eq_false_iff_outsideQuotes.mp outside
    rw [List.reverse_reverse, ← split] at outsideHere
    exact outsideHere
  · rw [tokenAt?_eq_findSome?] at found
    rcases List.exists_of_findSome?_eq_some found with ⟨field, inside, own⟩
    have fieldMember := mem_tried_iff.mp inside
    rcases Field.tokenAt?_eq_some (isProper fieldMember) own with ⟨same, _, _⟩
    refine ⟨field, fieldMember, same, left, startAfter, split, ?_, ?_⟩
    · exact byteLength_reverse left
    · rw [own, Option.map_some]

/-- The captures of an input are the leftmost matches of fields outside quotation marks that do not
overlap.  Each of them is the match of its field at its place, they follow each other, a match
behind some of them never starts before the next one, and every place of a match stands in one. -/
theorem captures_leftmost (grammar : Grammar) (input : String) :
    (∀ capture ∈ grammar.captures input, OutsideQuotes input.toList capture.start ∧
      ∃ field ∈ grammar.fields, capture.field = field.name ∧ field.HasMatch input.toList capture) ∧
    ((grammar.captures input).Pairwise fun first second => first.stop ≤ second.start) ∧
    ∀ field ∈ grammar.fields, ∀ offset, field.MatchesAt input.toList offset →
      OutsideQuotes input.toList offset →
        (∃ capture ∈ grammar.captures input, capture.start ≤ offset ∧ offset < capture.stop) ∧
        ∀ earlier next later, grammar.captures input = earlier ++ next :: later →
          (∀ capture ∈ earlier, capture.stop ≤ offset) → next.start ≤ offset := by
  have ordered := grammar.captures_pairwise input
  refine ⟨?_, ordered, ?_⟩
  · exact fun capture member => hasMatch_of_mem_captures member
  · intro field member offset here outside
    rcases exists_capture_of_matchesAt member here outside with ⟨capture, captured, start, stop⟩
    refine ⟨⟨capture, captured, start, stop⟩, ?_⟩
    intro earlier next later split behind
    rw [split] at captured ordered
    rw [List.pairwise_append, List.pairwise_cons] at ordered
    rcases List.mem_append.mp captured with before | onwards
    · have passed := behind capture before
      omega
    · rcases List.mem_cons.mp onwards with rfl | after
      · exact start
      · have nextMember : next ∈ grammar.captures input := by simp [split]
        rcases exists_token_of_mem_captures nextMember with ⟨_, _, _, _, divides⟩
        have order := ordered.2.1.1 capture after
        rw [divides.stop_eq] at order
        rw [divides.start_eq]
        omega

/-- In `mrekk -t "a -e b" -e` the second flag is captured: the first one stands inside a title, and
the scan does not go too far behind it. -/
theorem captures_leftmost_exact :
    let input := "mrekk -t \"a -e b\" -e"
    Search.Part.exact.declaration.MatchesAt input.toList 17 ∧ OutsideQuotes input.toList 17 ∧
      ∃ capture ∈ Search.grammar.captures input, capture.start ≤ 17 ∧ 17 < capture.stop := by
  intro input
  have member : Search.Part.exact.declaration ∈ Search.grammar.fields :=
    List.mem_map_of_mem (by decide)
  have here : Search.Part.exact.declaration.MatchesAt input.toList 17 :=
    ⟨"mrekk -t \"a -e b\"".toList, " -e".toList, by decide, by decide, by decide +kernel⟩
  have outside : OutsideQuotes input.toList 17 := by
    unfold OutsideQuotes
    decide +kernel
  have found := (captures_leftmost Search.grammar input).2.2 _ member 17 here outside
  exact ⟨here, outside, found.1⟩

end Grammar

end SearchCommands
