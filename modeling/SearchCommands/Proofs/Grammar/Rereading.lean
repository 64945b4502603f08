import SearchCommands.Proofs.Command.Stripping
import SearchCommands.Proofs.Grammar.Coverage

/-!
# Reading a leftover again

Tokens are cut out of a text, and what stood on both sides of them comes together.  This makes no
new words and opens no quotation marks: a token starts where the blanks before a word start, it stops
where a word ends, and it has its quotation marks in pairs.  So what is left over are some of the
words, each as quoted as before (`Grammar.IsQuoteFree.keepsSome_uncovered`, by induction on the
words).  A grammar of flags and numbers, which reads word by word, finds nothing in its own leftover,
nor in what any other grammar leaves of that.
-/

namespace SearchCommands

open Text

/-- The text is made of some of the segments, with the blanks behind the last one.  Each of these
segments has quotation marks open around it or not as before, if the given characters stand before
the text. -/
def Text.KeepsSome (segments : List Segment) (tail before text : List Char) : Prop :=
  ∃ kept, kept.Sublist segments ∧ Segmented before kept ∧ text = joined kept ++ tail

namespace Text.KeepsSome

variable {before before' tail text : List Char} {segment : Segment} {segments rest : List Segment}

theorem append_left (keeps : KeepsSome segments tail before text) (left : List Segment) :
    KeepsSome (left ++ segments) tail before text := by
  rcases keeps with ⟨kept, sublist, segmented, same⟩
  exact ⟨kept, sublist.trans (List.sublist_append_right left segments), segmented, same⟩

/-- A segment in front is kept as well, if the marks that close a pair are kept. -/
theorem cons (keeps : KeepsSome rest tail (segment.text.reverse ++ before') text)
    (segmented : Segmented before (segment :: rest)) (blank : AllBlank tail)
    (start : before = [] → before' = []) (parity : before.count '"' % 2 = before'.count '"' % 2)
    (marks : before.count '"' % 2 = 1 →
      ('"' ∈ segment.text ++ text ↔ '"' ∈ joined (segment :: rest) ++ tail)) :
    KeepsSome (segment :: rest) tail before' (segment.text ++ text) := by
  rcases keeps with ⟨kept, sublist, more, rfl⟩
  have plainTail : '"' ∉ tail := List.count_eq_zero.mp blank.count_quote
  have whole : segment.text ++ (joined kept ++ tail) = joined (segment :: kept) ++ tail := by
    simp [joined_cons, Segment.text]
  rw [whole] at marks ⊢
  refine ⟨segment :: kept, sublist.cons_cons segment, ?_, rfl⟩
  cases segmented with
  | cons gapBlank place some inked quoted _ =>
      refine .cons gapBlank (place.imp_left start) some inked ?_ more
      rw [quoted]
      apply Cursor.insideQuotes_congr_of_odd parity
      intro odd
      have same := marks odd
      simp only [List.mem_append, plainTail, or_false] at same
      exact same.symm

end Text.KeepsSome

namespace Grammar

variable {grammar : Grammar}

/-- Behind an odd number of quotation marks the next one closes a pair, and no token covers it. -/
theorem Scans.mem_quote_uncovered {cursor : Cursor} {tokens : List Token}
    (scans : grammar.Scans cursor tokens) (odd : cursor.before.count '"' % 2 = 1) :
    '"' ∈ Token.uncovered cursor tokens ↔ '"' ∈ cursor.after := by
  constructor
  · exact fun mark => scans.sublist_uncovered.subset mark
  intro mark
  induction scans with
  | done before => exact mark
  | @pass before after c tokens _ rest ih =>
      have passed : Token.uncovered ⟨before, [c] ++ after⟩ tokens =
          [c] ++ Token.uncovered ⟨c :: before, after⟩ tokens := rest.uncovered_append
      rw [List.singleton_append] at passed
      rw [passed, List.singleton_append]
      by_cases isMark : c = '"'
      · simp [isMark]
      · refine List.mem_cons_of_mem c (ih ?_ ?_)
        · simpa [List.count_cons, isMark] using odd
        · exact (List.mem_cons.mp mark).resolve_left (Ne.symm isMark)
  | @take cursor token tokens _ outside _ _ =>
      rw [Cursor.insideQuotes_of_odd odd mark] at outside
      cases outside

/-- A scan goes on behind a word before whose blanks nothing is found, or marks are open. -/
theorem Scans.behind_word {before gap word rest : List Char} {tokens : List Token}
    (blank : AllBlank gap) (some : word ≠ []) (inked : NoBlank word)
    (nothing : grammar.tokenAt? ⟨before, gap ++ (word ++ rest)⟩ = none ∨
      (Cursor.mk before (gap ++ (word ++ rest))).insideQuotes = true)
    (scans : grammar.Scans ⟨before, gap ++ (word ++ rest)⟩ tokens) :
    grammar.Scans ⟨word.reverse ++ (gap.reverse ++ before), rest⟩ tokens := by
  have behind := grammar.scans_tokensFrom (word.reverse ++ (gap.reverse ++ before)) rest
  rw [scans.deterministic (behind.pass_word blank some inked nothing)]
  exact behind

/-- A scan goes on behind the first of some segments, if it takes no token there. -/
theorem Scans.behind_segment {before tail : List Char} {segment : Segment} {rest : List Segment}
    {tokens : List Token} (segmented : Segmented before (segment :: rest))
    (nothing : grammar.tokenAt? ⟨before, joined (segment :: rest) ++ tail⟩ = none ∨
      (Cursor.mk before (joined (segment :: rest) ++ tail)).insideQuotes = true)
    (scans : grammar.Scans ⟨before, joined (segment :: rest) ++ tail⟩ tokens) :
    grammar.Scans ⟨segment.text.reverse ++ before, joined rest ++ tail⟩ tokens := by
  have whole : joined (segment :: rest) ++ tail =
      segment.gap ++ (segment.word ++ (joined rest ++ tail)) := by simp [joined_cons]
  have before_eq : segment.text.reverse ++ before =
      segment.word.reverse ++ (segment.gap.reverse ++ before) := by simp [Segment.text]
  rw [whole] at nothing scans
  rw [before_eq]
  cases segmented with
  | cons blank _ some inked _ _ => exact scans.behind_word blank some inked nothing

/-- A token at the start of some segments is some of the segments. -/
theorem exists_segments_of_tokenAt? {before tail : List Char} {segments : List Segment}
    (segmented : Segmented before segments) (blank : AllBlank tail) {token : Token}
    (found : grammar.tokenAt? ⟨before, joined segments ++ tail⟩ = some token) :
    ∃ left right, segments = left ++ right ∧ joined left ≠ [] ∧
      token.stop = ⟨(joined left).reverse ++ before, joined right ++ tail⟩ ∧
      (grammar.IsQuoteFree → (joined left).count '"' % 2 = 0) := by
  rcases tokenAt?_eq_some found with ⟨field, member, _, start, occurs⟩
  have proper := isProper member
  have reaches := reaches_of_occursAt occurs
  rcases occurs.exists_covered with ⟨blanks, word, covered, _, spells, _, ends⟩
  have split := reaches.after_eq
  have inked : EndsInked (blanks ++ word) :=
    (spells.trimmed proper).2.append (spells.ne_nil proper)
  rw [covered] at split
  rcases segmented.exists_split blank split inked ends with
    ⟨left, right, segmentsEq, leftEq, rightEq⟩
  refine ⟨left, right, segmentsEq, ?_, ?_, ?_⟩
  · rw [← leftEq, ← covered]
    exact occurs.textTo_ne_nil proper
  · have stop := reaches.before_eq
    rw [covered, leftEq] at stop
    rw [← stop, ← rightEq]
  · intro quoteFree
    rw [← leftEq, ← covered]
    exact (quoteFree field member).even_covered occurs

/-- What a scan leaves of a text are some of its words, each with quotation marks open around it or
not as before. -/
theorem IsQuoteFree.keepsSome_uncovered (quoteFree : grammar.IsQuoteFree)
    {before before' tail : List Char} {segments : List Segment} {tokens : List Token}
    (segmented : Segmented before segments) (blank : AllBlank tail)
    (scans : grammar.Scans ⟨before, joined segments ++ tail⟩ tokens)
    (start : before = [] → before' = []) (parity : before.count '"' % 2 = before'.count '"' % 2) :
    KeepsSome segments tail before'
      (Token.uncovered ⟨before, joined segments ++ tail⟩ tokens) := by
  -- the marks before the kept text and before the whole text agree in parity at every step
  generalize size : segments.length = length
  induction length using Nat.strongRecOn generalizing before before' segments tokens with
  | _ length ih =>
      cases segments with
      | nil =>
          have none : tokens = [] := scans.deterministic (.pass_blanks blank)
          subst none
          exact ⟨[], .refl _, .nil before', rfl⟩
      | cons segment rest =>
          by_cases nothing : grammar.tokenAt? ⟨before, joined (segment :: rest) ++ tail⟩ = none ∨
              (Cursor.mk before (joined (segment :: rest) ++ tail)).insideQuotes = true
          · -- the word is passed over and kept
            have behind := scans.behind_segment segmented nothing
            have keeps : KeepsSome rest tail (segment.text.reverse ++ before') (Token.uncovered
                ⟨segment.text.reverse ++ before, joined rest ++ tail⟩ tokens) := by
              refine ih rest.length ?_ segmented.behind_first behind ?_ ?_ rfl
              · simp [← size]
              · simp [segmented.text_ne_nil]
              · simp only [List.count_append]
                omega
            have whole : joined (segment :: rest) ++ tail =
                segment.text ++ (joined rest ++ tail) := by simp [joined_cons, Segment.text]
            have marks := scans.mem_quote_uncovered
            rw [whole, behind.uncovered_append, ← whole] at marks
            rw [whole, behind.uncovered_append]
            exact keeps.cons segmented blank start parity marks
          · -- a token is taken, which covers the word and perhaps others
            rw [not_or, Bool.not_eq_true] at nothing
            rcases Option.ne_none_iff_exists'.mp nothing.1 with ⟨token, found⟩
            rcases scans.of_found found nothing.2 with ⟨later, rfl, behind⟩
            rcases exists_segments_of_tokenAt? segmented blank found with
              ⟨left, right, split, covers, stop, even⟩
            have shorter : right.length < length := by
              have some : left ≠ [] := fun none => covers (by rw [none, joined_nil])
              have positive := List.length_pos_iff.mpr some
              rw [← size, split, List.length_append]
              omega
            have evenCovered := even quoteFree
            rcases tokenAt?_eq_some found with ⟨_, _, _, atStart, _⟩
            rw [Token.uncovered, atStart, textTo_self, stop, List.nil_append, split]
            rw [stop] at behind
            rw [split] at segmented
            refine (ih right.length shorter segmented.of_append behind ?_ ?_ rfl).append_left left
            · simp [covers]
            · simp only [List.count_append, List.count_reverse]
              omega

variable {input text : String} {segments : List Segment}

/-- What is left over is made of some of the words. -/
theorem IsQuoteFree.leftover_isMadeOf (quoteFree : grammar.IsQuoteFree)
    (made : IsMadeOf input.toList segments) :
    ∃ kept, kept.Sublist segments ∧ IsMadeOf (grammar.leftover input).toList kept := by
  have scans := grammar.scans_tokens (String.ofList (joined segments))
  have shape : Cursor.ofText (String.ofList (joined segments)).toList =
      ⟨[], joined segments ++ []⟩ := by simp [Cursor.ofText]
  rw [shape] at scans
  rcases quoteFree.keepsSome_uncovered made.segmented .nil scans id rfl with
    ⟨kept, sublist, keptSegmented, uncovered⟩
  refine ⟨kept, sublist, keptSegmented, ?_⟩
  rw [(quoteFree.captures_congr made.trim_eq).2, leftover, String.toList_ofList, shape, uncovered,
    List.append_nil]
  exact trim_eq_self_iff.mpr (trimmed_trim _)

/-- Nothing in the text is captured, and all of it is left over. -/
structure FindsNothingIn (grammar : Grammar) (text : String) : Prop where
  captures : grammar.captures text = []
  leftover : grammar.leftover text = text

namespace IsWordwise

variable (wordwise : grammar.IsWordwise)

include wordwise

/-- Nothing is captured exactly if no word of the text says anything. -/
theorem captures_eq_nil_iff (made : IsMadeOf text.toList segments) :
    grammar.captures text = [] ↔ ∀ segment ∈ segments, grammar.entryIn? segment = none := by
  rw [← List.map_eq_nil_iff (f := Capture.entry), (wordwise.reads_made made).1,
    List.filterMap_eq_nil_iff]

theorem findsNothingIn_of_captures (nothing : grammar.captures text = [])
    (trimmed : Trimmed text.toList) : grammar.FindsNothingIn text := by
  rcases IsMadeOf.exists_segments text.toList with ⟨segments, made⟩
  have all : grammar.unread segments = segments := by
    apply List.filter_eq_self.mpr
    intro segment member
    rw [(wordwise.captures_eq_nil_iff made).mp nothing segment member]
    rfl
  have left := wordwise.leftover_isMadeOf made
  rw [all] at left
  exact ⟨nothing, String.toList_injective (left.eq made (grammar.trimmed_leftover text) trimmed)⟩

/-- A grammar of flags and numbers finds nothing in what it leaves over. -/
theorem findsNothingIn_leftover (input : String) :
    grammar.FindsNothingIn (grammar.leftover input) := by
  rcases IsMadeOf.exists_segments input.toList with ⟨segments, made⟩
  have left := wordwise.leftover_isMadeOf made
  apply wordwise.findsNothingIn_of_captures _ (grammar.trimmed_leftover input)
  rw [wordwise.captures_eq_nil_iff left]
  intro segment member
  simpa using (List.mem_filter.mp member).2

/-- Where a grammar of flags and numbers finds nothing, it finds nothing in what another grammar
leaves over. -/
theorem findsNothingIn_leftover_of {other : Grammar} (quoteFree : other.IsQuoteFree)
    (nothing : grammar.captures input = []) : grammar.FindsNothingIn (other.leftover input) := by
  rcases IsMadeOf.exists_segments input.toList with ⟨segments, made⟩
  rcases quoteFree.leftover_isMadeOf made with ⟨kept, sublist, keptMade⟩
  apply wordwise.findsNothingIn_of_captures _ (other.trimmed_leftover input)
  rw [wordwise.captures_eq_nil_iff keptMade]
  intro segment member
  exact (wordwise.captures_eq_nil_iff made).mp nothing segment (sublist.subset member)

end IsWordwise

/-- Where nothing is found, no field matches outside of quotation marks. -/
theorem FindsNothingIn.not_matchesAt (nothing : grammar.FindsNothingIn text) {field : Field}
    (member : field ∈ grammar.fields) {offset : Nat} (here : field.MatchesAt text.toList offset) :
    ¬ OutsideQuotes text.toList offset := by
  intro outside
  rcases exists_capture_of_matchesAt member here outside with ⟨capture, captured, _⟩
  rw [nothing.captures] at captured
  cases captured

end Grammar

end SearchCommands
