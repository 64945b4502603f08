import SearchCommands.Proofs.Text.Places
import SearchCommands.Proofs.Text.Quotation

/-!
# Texts word by word

A text is cut into its words, each with the blanks before it.  A pair of quotation marks can reach
over many words, so for each word it is noted whether a pair is open where its blanks start.  These
notes survive when words without marks are taken out (`Segmented.filter`) and when another text with
complete pairs is put in front (`Segmented.append`), since neither changes which marks pair up.
-/

namespace SearchCommands.Text

/-- A word with the blanks before it, and whether quotation marks are open before the blanks. -/
structure Segment where
  gap : List Char
  word : List Char
  quoted : Bool
  deriving DecidableEq, Repr

/-- The segment as it stands in the text. -/
def Segment.text (segment : Segment) : List Char := segment.gap ++ segment.word

/-- The text of some segments. -/
def joined (segments : List Segment) : List Char := segments.flatMap Segment.text

@[simp]
theorem joined_nil : joined [] = [] := rfl

theorem joined_cons (segment : Segment) (rest : List Segment) :
    joined (segment :: rest) = segment.gap ++ (segment.word ++ joined rest) := by
  simp [joined, Segment.text]

theorem joined_append (left right : List Segment) :
    joined (left ++ right) = joined left ++ joined right :=
  List.flatMap_append

/-- The segments with more blanks before the first one. -/
def indented (blanks : List Char) : List Segment → List Segment
  | [] => []
  | first :: rest => ⟨blanks ++ first.gap, first.word, first.quoted⟩ :: rest

/-- Without a word, blanks in front of a text are blanks behind it. -/
theorem exists_joined_indented {blanks tail : List Char} (blank : AllBlank blanks)
    (tailBlank : AllBlank tail) (segments : List Segment) :
    ∃ tail', blanks ++ (joined segments ++ tail) = joined (indented blanks segments) ++ tail' ∧
      AllBlank tail' := by
  cases segments with
  | nil => exact ⟨blanks ++ tail, rfl, blank.append tailBlank⟩
  | cons first rest => exact ⟨tail, by simp [indented, joined_cons], tailBlank⟩

/-- The segments are those of their text, where the given characters stand before it, the nearest
one first. -/
inductive Segmented : List Char → List Segment → Prop where
  | nil (before : List Char) : Segmented before []
  | cons {before : List Char} {segment : Segment} {rest : List Segment}
      (blank : AllBlank segment.gap) (place : before = [] ∨ segment.gap ≠ [])
      (some : segment.word ≠ []) (inked : NoBlank segment.word)
      (quoted : segment.quoted = (Cursor.mk before (joined (segment :: rest))).insideQuotes)
      (more : Segmented (segment.text.reverse ++ before) rest) : Segmented before (segment :: rest)

namespace Segmented

variable {before before' tail : List Char} {segments left right : List Segment}

/-- Every text has segments, and blanks may follow the last of them. -/
theorem exists_of_text (before text : List Char) (place : before = [] ∨ EndsWord text) :
    ∃ segments tail, text = joined segments ++ tail ∧ AllBlank tail ∧
      Segmented before segments := by
  generalize size : text.length = length
  induction length using Nat.strongRecOn generalizing before text with
  | _ length ih =>
      rcases exists_blanks text with ⟨gap, rest, rfl, blank, inked⟩
      by_cases none : rest = []
      · subst none
        exact ⟨[], gap, by simp, blank, .nil before⟩
      rcases PartKind.word.leads rest with ⟨after, split⟩
      generalize wordEq : PartKind.word.lead rest = word at split
      have lead : leadingWord (word ++ after) = word := by rw [← split, ← wordEq]; rfl
      have some : word ≠ [] := by
        rintro rfl
        rcases List.exists_cons_of_ne_nil none with ⟨c, more, rfl⟩
        have isBlank := leadingWord_eq_nil wordEq
        rw [inked c rfl] at isBlank
        cases isBlank
      have noBlank : NoBlank word := lead ▸ noBlank_leadingWord _
      have shorter : after.length < length := by
        have positive := List.length_pos_iff.mpr some
        rw [← size, split]
        simp only [List.length_append]
        omega
      rcases ih after.length shorter (word.reverse ++ (gap.reverse ++ before)) after
        (Or.inr (endsWord_of_leadingWord lead)) rfl with ⟨segments, tail, afterEq, tailBlank, more⟩
      have gapPlace : before = [] ∨ gap ≠ [] := by
        refine place.imp_right fun ends => ?_
        rintro rfl
        rcases List.exists_cons_of_ne_nil none with ⟨c, rest, rfl⟩
        have isBlank := ends c rfl
        rw [inked c rfl] at isBlank
        cases isBlank
      refine ⟨⟨gap, word, (Cursor.mk before (gap ++ (word ++ joined segments))).insideQuotes⟩ ::
        segments, tail, ?_, tailBlank, .cons blank gapPlace some noBlank ?_ ?_⟩
      · rw [split, afterEq, joined_cons]
        simp
      · rw [joined_cons]
      · simpa [Segment.text] using more

/-- Behind another word, blanks come before every word. -/
theorem gap_ne_nil (segmented : Segmented before segments) (inner : before ≠ []) :
    ∀ segment ∈ segments.head?, segment.gap ≠ [] := by
  intro segment member
  cases segmented with
  | nil => cases member
  | cons _ place =>
      cases member
      exact place.resolve_left inner

theorem endsWord (segmented : Segmented before segments) (inner : before ≠ [])
    (blank : AllBlank tail) : EndsWord (joined segments ++ tail) := by
  cases segmented with
  | nil => exact .of_allBlank blank
  | cons gapBlank place =>
      rw [joined_cons, List.append_assoc]
      exact .append_of_ne_nil (place.resolve_left inner) gapBlank _

theorem inside (segmented : Segmented before segments) :
    ∀ segment ∈ segments, AllBlank segment.gap ∧ segment.word ≠ [] ∧ NoBlank segment.word := by
  induction segmented with
  | nil => simp
  | cons blank _ some inked _ _ ih => exact List.forall_mem_cons.mpr ⟨⟨blank, some, inked⟩, ih⟩

/-- Where no marks follow, none are open. -/
theorem quoted_eq_false (segmented : Segmented before segments) (plain : '"' ∉ joined segments) :
    ∀ segment ∈ segments, segment.quoted = false := by
  induction segmented with
  | nil => simp
  | cons _ _ _ _ quoted _ ih =>
      have later := plain
      rw [joined_cons, List.mem_append, List.mem_append, not_or, not_or] at later
      refine List.forall_mem_cons.mpr ⟨?_, ih later.2.2⟩
      rw [quoted]
      simp [Cursor.insideQuotes, plain]

/-- Only words without quotation marks are taken out, so no mark is. -/
theorem mem_quote_filter {keep : Segment → Bool} (segmented : Segmented before segments)
    (plain : ∀ segment ∈ segments, keep segment = false → '"' ∉ segment.word) :
    '"' ∈ joined (segments.filter keep) ↔ '"' ∈ joined segments := by
  have marks := segmented.inside
  simp only [joined, Segment.text, List.mem_flatMap, List.mem_filter, List.mem_append]
  constructor
  · rintro ⟨segment, ⟨member, _⟩, mark⟩
    exact ⟨segment, member, mark⟩
  · rintro ⟨segment, member, mark⟩
    have inWord : '"' ∈ segment.word :=
      mark.resolve_left (List.count_eq_zero.mp (marks segment member).1.count_quote)
    cases kept : keep segment with
    | true => exact ⟨segment, ⟨member, kept⟩, mark⟩
    | false => exact absurd inWord (plain segment member kept)

/-- Taking words without quotation marks out leaves the other words as they are. -/
theorem filter {keep : Segment → Bool} (segmented : Segmented before segments)
    (plain : ∀ segment ∈ segments, keep segment = false → '"' ∉ segment.word)
    (start : before = [] → before' = []) (parity : before.count '"' % 2 = before'.count '"' % 2) :
    Segmented before' (segments.filter keep) := by
  induction segmented generalizing before' with
  | nil => exact .nil before'
  | @cons before segment rest blank place some inked quoted more ih =>
      have restPlain := (List.forall_mem_cons.mp plain).2
      have notFirst : segment.text.reverse ++ before ≠ [] := by simp [Segment.text, some]
      rw [List.filter_cons]
      split
      · refine .cons blank (place.imp_left start) some inked ?_
          (ih restPlain (fun impossible => absurd impossible notFirst) ?_)
        · rw [quoted]
          apply Cursor.insideQuotes_congr parity
          have marks := more.mem_quote_filter restPlain
          simp only [joined_cons, List.mem_append, marks]
        · simp only [List.count_append]
          omega
      · rename_i dropped
        have none := plain segment List.mem_cons_self (by simpa using dropped)
        apply ih restPlain (fun impossible => absurd impossible notFirst)
        rw [List.count_append, List.count_reverse, Segment.text, List.count_append,
          blank.count_quote, List.count_eq_zero.mpr none]
        omega

/-- What stands before a text matters to its words only by the number of marks in it. -/
theorem behind (segmented : Segmented before segments)
    (place : ∀ segment ∈ segments.head?, before' = [] ∨ segment.gap ≠ [])
    (parity : before.count '"' % 2 = before'.count '"' % 2) : Segmented before' segments := by
  cases segmented with
  | nil => exact .nil before'
  | @cons _ segment rest blank _ some inked quoted more =>
      refine .cons blank (place segment rfl) some inked
        (quoted.trans (Cursor.insideQuotes_congr parity .rfl)) ?_
      have notFirst : segment.text.reverse ++ before ≠ [] := by simp [Segment.text, some]
      have all : rest.filter (fun _ => true) = rest := List.filter_eq_self.mpr (by simp)
      rw [← all]
      apply more.filter (by simp) (fun impossible => absurd impossible notFirst)
      simp only [List.count_append]
      omega

/-- Texts with complete pairs of quotation marks have their words one after the other. -/
theorem append (segmented : Segmented before left)
    (more : Segmented ((joined left).reverse ++ before) right)
    (even : (joined left ++ before).count '"' % 2 = 0) : Segmented before (left ++ right) := by
  induction segmented with
  | nil => simpa using more
  | @cons before segment rest blank place some inked quoted _ ih =>
      have marks : (joined (segment :: rest)).count '"' =
          (joined rest).count '"' + segment.text.count '"' := by
        rw [joined_cons, Segment.text]
        simp only [List.count_append]
        omega
      rw [List.count_append] at even
      rw [List.cons_append]
      refine .cons blank place some inked ?_ (ih ?_ ?_)
      · have split : joined (segment :: (rest ++ right)) =
            joined (segment :: rest) ++ joined right := joined_append (segment :: rest) right
        rw [quoted, split]
        by_cases odd : before.count '"' % 2 = 1
        · -- the pair that is open here is closed before the second text
          have closed : '"' ∈ joined (segment :: rest) := by
            rw [← List.count_pos_iff]
            omega
          exact Cursor.insideQuotes_congr rfl (by simp [closed])
        · have closedBefore : before.count '"' % 2 = 0 := by omega
          simp [Cursor.insideQuotes, closedBefore]
      · simpa [joined_cons, Segment.text] using more
      · rw [List.count_append, List.count_append, List.count_reverse]
        omega

theorem text_ne_nil {segment : Segment} (segmented : Segmented before (segment :: right)) :
    segment.text ≠ [] := by
  cases segmented with
  | cons _ _ some _ _ _ => simp [Segment.text, some]

theorem behind_first {segment : Segment} (segmented : Segmented before (segment :: right)) :
    Segmented (segment.text.reverse ++ before) right := by
  cases segmented with
  | cons _ _ _ _ _ more => exact more

/-- The segments behind some others are those of the text behind theirs. -/
theorem of_append (segmented : Segmented before (left ++ right)) :
    Segmented ((joined left).reverse ++ before) right := by
  induction left generalizing before with
  | nil => simpa using segmented
  | cons segment rest ih => simpa [joined_cons, Segment.text] using ih segmented.behind_first

/-- What is cut off where a word ends is some of the segments. -/
theorem exists_split (segmented : Segmented before segments) (blank : AllBlank tail)
    {text rest : List Char} (split : joined segments ++ tail = text ++ rest)
    (inked : EndsInked text) (ends : EndsWord rest) :
    ∃ left right, segments = left ++ right ∧ text = joined left ∧ rest = joined right ++ tail := by
  by_cases empty : text = []
  · subst empty
    exact ⟨[], segments, rfl, rfl, split.symm⟩
  induction segmented generalizing text with
  | nil =>
      rw [joined_nil, List.nil_append] at split
      exact absurd ((split ▸ blank).of_append_left.eq_nil_of_endsInked inked) empty
  | @cons before segment more gapBlank _ _ wordInked _ _ ih =>
      have shape : (segment.gap ++ segment.word) ++ (joined more ++ tail) = text ++ rest := by
        rw [← split, joined_cons]
        simp
      rcases List.append_eq_append_iff.mp shape with ⟨own, rfl, split'⟩ | ⟨cut, here, rfl⟩
      · by_cases last : own = []
        · subst last
          exact ⟨[segment], more, rfl, by simp [joined_cons], split'.symm⟩
        · rcases ih split' inked.of_append last with ⟨left, right, rfl, rfl, restEq⟩
          exact ⟨segment :: left, right, rfl, by simp [joined_cons], restEq⟩
      · -- neither the gap nor the word is cut
        have whole : cut = [] := by
          rcases List.append_eq_append_iff.mp here with ⟨own, rfl, wordEq⟩ | ⟨own, gapEq, _⟩
          · cases cut with
            | nil => rfl
            | cons c cut =>
                have isBlank := ends c (by simp)
                rw [wordInked c (by simp [wordEq])] at isBlank
                cases isBlank
          · exact absurd ((gapEq ▸ gapBlank).of_append_left.eq_nil_of_endsInked inked) empty
        subst whole
        exact ⟨[segment], more, rfl, by simpa [joined_cons] using here.symm, rfl⟩

/-- Blanks in front of a text are blanks before its first word. -/
theorem indented {blanks : List Char} (segmented : Segmented [] segments) (blank : AllBlank blanks)
    (some : blanks ≠ []) (even : before.count '"' % 2 = 0) :
    Segmented before (Text.indented blanks segments) := by
  cases segmented with
  | nil => exact .nil before
  | @cons _ first rest gapBlank _ wordSome inked quoted more =>
      refine .cons (blank.append gapBlank) (Or.inr (by simp [some])) wordSome inked ?_ ?_
      · -- no marks are open at the start of either text
        rw [quoted]
        simp [Cursor.insideQuotes, even]
      · apply more.behind
        · intro segment member
          exact Or.inr (more.gap_ne_nil (by simp [Segment.text, wordSome]) segment member)
        · simp only [Segment.text, List.append_nil, List.reverse_append, List.count_append,
            List.count_reverse, blank.count_quote]
          omega

end Segmented

/-- The words of some segments, with their places behind the given number of bytes. -/
def wordsOf (offset : Nat) : List Segment → List Placed
  | [] => []
  | segment :: rest =>
      ⟨offset + byteLength segment.gap, segment.word⟩ ::
        wordsOf (offset + byteLength segment.text) rest

theorem texts_wordsOf (offset : Nat) (segments : List Segment) :
    (wordsOf offset segments).map Placed.text = segments.map Segment.word := by
  induction segments generalizing offset with
  | nil => rfl
  | cons segment rest ih => simp [wordsOf, ih]

/-- The words of a text are those of its segments. -/
theorem Segmented.partsFrom_eq {before tail : List Char} {segments : List Segment}
    (segmented : Segmented before segments) (blank : AllBlank tail) (offset : Nat) :
    PartKind.word.partsFrom offset (joined segments ++ tail) = wordsOf offset segments := by
  induction segmented generalizing offset with
  | nil => exact PartKind.partsFrom_of_allBlank blank offset
  | @cons before segment rest gapBlank _ some inked _ more ih =>
      have ends := more.endsWord (by simp [Segment.text, some]) blank
      have lead := leadingWord_of_endsWord inked ends
      rw [joined_cons, List.append_assoc, List.append_assoc, PartKind.partsFrom_blanks gapBlank,
        PartKind.partsFrom_take lead some, ih, wordsOf, Segment.text, byteLength_append,
        Nat.add_assoc]

end SearchCommands.Text
