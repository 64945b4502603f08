import SearchCommands.Proofs.Command.Grammars
import SearchCommands.Proofs.Grammar.WordByWord

/-!
# Words taken out of a text

Grammars of flags and numbers take words out of a text one grammar after the other.  Which words
they take, and what they find in them, is the same in whatever order they read and whichever words
are missing that they would not have taken (`Grammar.findAlike_of_dropped`,
`Grammar.leftoverOf_comm`).
-/

namespace SearchCommands

open Text

/-- The text has the given words, and there may be other blanks at its ends. -/
structure Text.IsMadeOf (text : List Char) (segments : List Segment) : Prop where
  segmented : Segmented [] segments
  trimmed : trim text = trim (joined segments)

namespace Text.IsMadeOf

variable {text text' tail : List Char} {segments : List Segment}

theorem of_split (split : text = joined segments ++ tail) (blank : AllBlank tail)
    (segmented : Segmented [] segments) : IsMadeOf text segments :=
  ⟨segmented, by rw [split, trim_append_blanks blank]⟩

/-- Every text is made of its words. -/
theorem exists_segments (text : List Char) : ∃ segments, IsMadeOf text segments := by
  rcases Segmented.exists_of_text [] text (Or.inl rfl) with ⟨segments, _, split, blank, segmented⟩
  exact ⟨segments, .of_split split blank segmented⟩

/-- Only the blanks at the ends are left open. -/
theorem eq (made : IsMadeOf text segments) (made' : IsMadeOf text' segments)
    (trimmed : Trimmed text) (trimmed' : Trimmed text') : text = text' := by
  rw [← trim_eq_self_iff.mpr trimmed, ← trim_eq_self_iff.mpr trimmed', made.trimmed, made'.trimmed]

theorem trim_eq {input : String} (made : IsMadeOf input.toList segments) :
    trim input.toList = trim (String.ofList (joined segments)).toList := by
  rw [made.trimmed, String.toList_ofList]

end Text.IsMadeOf

namespace Grammar

variable {grammar : Grammar} {input input' : String} {segments : List Segment}

theorem IsWordwise.reads_made (wordwise : grammar.IsWordwise)
    (made : IsMadeOf input.toList segments) :
    (grammar.captures input).map Capture.entry = segments.filterMap grammar.entryIn? ∧
      (grammar.leftover input).toList = trim (joined (grammar.unread segments)) := by
  have split : (String.ofList (joined segments)).toList = joined segments ++ [] := by simp
  rcases wordwise.quoteFree.captures_congr made.trim_eq with ⟨entries, leftover⟩
  rcases wordwise.captures_eq split .nil made.segmented with ⟨captured, left⟩
  constructor
  · rw [entries, captured, entries_capturesIn]
  · rw [leftover, left, String.toList_ofList]

/-- The words in which the grammar finds nothing are left over. -/
theorem IsWordwise.leftover_isMadeOf (wordwise : grammar.IsWordwise)
    (made : IsMadeOf input.toList segments) :
    IsMadeOf (grammar.leftover input).toList (grammar.unread segments) := by
  refine ⟨made.segmented.filter (wordwise.noQuote_of_read made.segmented) id rfl, ?_⟩
  rw [(wordwise.reads_made made).2]
  exact trim_eq_self_iff.mpr (trimmed_trim _)

/-- The words in which none of the grammars finds anything. -/
def unreadBy (grammars : List Grammar) (segments : List Segment) : List Segment :=
  segments.filter fun segment => grammars.all fun grammar => (grammar.entryIn? segment).isNone

theorem unreadBy_cons (grammar : Grammar) (grammars : List Grammar) (segments : List Segment) :
    unreadBy (grammar :: grammars) segments = unreadBy grammars (grammar.unread segments) := by
  simp [unreadBy, unread, List.filter_filter, Bool.and_comm]

theorem unreadBy_comm (grammars grammars' : List Grammar) (segments : List Segment) :
    unreadBy (grammars ++ grammars') segments = unreadBy (grammars' ++ grammars) segments := by
  simp [unreadBy, Bool.and_comm]

variable {grammars grammars' : List Grammar}

theorem leftoverOf_isMadeOf (wordwise : ∀ grammar ∈ grammars, grammar.IsWordwise)
    (made : IsMadeOf input.toList segments) :
    IsMadeOf (leftoverOf grammars input).toList (unreadBy grammars segments) := by
  induction grammars generalizing input segments with
  | nil => simpa [unreadBy] using made
  | cons grammar rest ih =>
      rw [List.forall_mem_cons] at wordwise
      rw [leftoverOf_cons, unreadBy_cons]
      exact ih wordwise.2 (wordwise.1.leftover_isMadeOf made)

theorem trimmed_leftoverOf (some : grammars ≠ []) (input : String) :
    Trimmed (leftoverOf grammars input).toList := by
  rcases List.eq_nil_or_concat grammars with none | ⟨before, last, rfl⟩
  · exact absurd none some
  · simpa using last.trimmed_leftover (leftoverOf before input)

/-- Grammars that read one after the other leave the same over in any order. -/
theorem leftoverOf_comm (wordwise : ∀ grammar ∈ grammars, grammar.IsWordwise)
    (wordwise' : ∀ grammar ∈ grammars', grammar.IsWordwise) (input : String) :
    leftoverOf (grammars ++ grammars') input = leftoverOf (grammars' ++ grammars) input := by
  rcases IsMadeOf.exists_segments input.toList with ⟨segments, made⟩
  by_cases none : grammars ++ grammars' = []
  · rw [List.append_eq_nil_iff] at none
    rw [none.1, none.2]
  · have none' : grammars' ++ grammars ≠ [] := by
      intro empty
      apply none
      simpa [and_comm] using empty
    have inOrder := leftoverOf_isMadeOf (List.forall_mem_append.mpr ⟨wordwise, wordwise'⟩) made
    have swapped := leftoverOf_isMadeOf (List.forall_mem_append.mpr ⟨wordwise', wordwise⟩) made
    rw [unreadBy_comm] at swapped
    exact String.toList_injective
      (inOrder.eq swapped (trimmed_leftoverOf none input) (trimmed_leftoverOf none' input))

/-- Grammars find the same in a text with fewer words if they would find nothing in the others. -/
theorem findAlike_of_dropped (wordwise : ∀ grammar ∈ grammars, grammar.IsWordwise)
    {keep : Segment → Bool} (made : IsMadeOf input.toList segments)
    (made' : IsMadeOf input'.toList (segments.filter keep))
    (dropped : ∀ segment ∈ segments, keep segment = false →
      ∀ grammar ∈ grammars, grammar.entryIn? segment = none) :
    FindAlike grammars input input' := by
  induction grammars generalizing input input' segments with
  | nil => trivial
  | cons grammar rest ih =>
      rw [List.forall_mem_cons] at wordwise
      have left' := wordwise.1.leftover_isMadeOf made'
      have swapped : grammar.unread (segments.filter keep) =
          (grammar.unread segments).filter keep := by
        simp only [unread, List.filter_filter, Bool.and_comm]
      rw [swapped] at left'
      refine ⟨?_, ih wordwise.2 (wordwise.1.leftover_isMadeOf made) left' ?_⟩
      · rw [(wordwise.1.reads_made made).1, (wordwise.1.reads_made made').1, List.filterMap_filter]
        apply List.filterMap_congr
        intro segment member
        cases kept : keep segment with
        | true => simp
        | false => simp [dropped segment member kept grammar List.mem_cons_self]
      · intro segment member notKept other otherMember
        have inText := (List.mem_filter.mp member).1
        exact dropped segment inText notKept other (List.mem_cons_of_mem grammar otherMember)

/-- A word in which something is found is covered by a capture. -/
theorem exists_word_covered (offset : Nat) {segment : Segment} (member : segment ∈ segments) :
    ∃ word ∈ wordsOf offset segments, ∀ grammar : Grammar, grammar.entryIn? segment ≠ none →
      (grammar.capturesIn offset segments).cover word = true := by
  induction segments generalizing offset with
  | nil => cases member
  | cons first rest ih =>
      rcases List.mem_cons.mp member with rfl | later
      · refine ⟨_, List.mem_cons_self, fun grammar found => ?_⟩
        rcases Option.ne_none_iff_exists'.mp found with ⟨entry, isEntry⟩
        have covers : Capture.covers ⟨entry.1, offset, offset + byteLength segment.text, entry.2⟩
            ⟨offset + byteLength segment.gap, segment.word⟩ = true := by
          rw [Capture.covers_iff, Placed.stop, Segment.text, byteLength_append]
          constructor
          · exact Nat.le_add_right _ _
          · exact Nat.le_of_eq (Nat.add_assoc _ _ _)
        simp [Captures.cover, capturesIn, isEntry, covers]
      · rcases ih (offset + byteLength first.text) later with ⟨word, wordMember, covered⟩
        refine ⟨word, List.mem_cons_of_mem _ wordMember, fun grammar found => ?_⟩
        rw [Captures.cover, capturesIn, List.any_append, Bool.or_eq_true]
        exact Or.inr (covered grammar found)

end Grammar

end SearchCommands
