import SearchCommands.Proofs.Text.Parts

/-!
# The places of words

A word of a text stands behind a blank or at the start, and before a blank or at the end.  Where it
stands is given by the length of the text before it, so two ways to take a text apart that agree in
this length are the same.
-/

namespace SearchCommands.Text

/-- A word can start behind the text: it is empty or ends in a blank. -/
def StartsWord (before : List Char) : Prop := ∀ c ∈ before.getLast?, isBlank c = true

theorem StartsWord.nil : StartsWord [] := by simp [StartsWord]

theorem StartsWord.of_append {left right : List Char} (starts : StartsWord (left ++ right)) :
    StartsWord right := by
  intro c member
  apply starts c
  rw [List.getLast?_append, Option.mem_def.mp member]
  rfl

theorem StartsWord.append {left right : List Char} (starts : StartsWord right)
    (some : right ≠ []) : StartsWord (left ++ right) := by
  intro c member
  rw [List.getLast?_append, List.getLast?_eq_some_getLast some, Option.some_or,
    ← List.getLast?_eq_some_getLast some] at member
  exact starts c member

/-- A text that ends in a blank is no word. -/
theorem StartsWord.not_noBlank {text : List Char} (starts : StartsWord text) (some : text ≠ []) :
    ¬ NoBlank text := by
  intro inked
  have last := List.getLast?_eq_some_getLast some
  have isBlank := starts _ last
  rw [inked _ (List.getLast_mem some)] at isBlank
  cases isBlank

/-- A word at the start of a text ends before a later word starts. -/
theorem split_before_word {word rest left later : List Char} (inked : NoBlank word)
    (starts : StartsWord left) (some : left ≠ []) (same : word ++ rest = left ++ later) :
    ∃ left', left = word ++ left' ∧ left' ≠ [] ∧ StartsWord left' ∧ rest = left' ++ later := by
  rcases List.append_eq_append_iff.mp same with ⟨left', rfl, rfl⟩ | ⟨more, rfl, _⟩
  · refine ⟨left', rfl, ?_, starts.of_append, rfl⟩
    rintro rfl
    rw [List.append_nil] at starts some
    exact starts.not_noBlank some inked
  · exfalso
    apply starts.not_noBlank some
    exact fun c member => inked c (List.mem_append_left more member)

theorem eq_nil_of_byteLength_eq_zero {text : List Char} (none : byteLength text = 0) : text = [] := by
  cases text with
  | nil => rfl
  | cons c text =>
      have some := byteLength_pos (List.cons_ne_nil c text)
      omega

/-- Of two texts that both start a text, the one that is not longer in bytes starts the other. -/
theorem split_of_byteLength_le {left right left' right' : List Char}
    (same : left ++ right = left' ++ right') (length : byteLength left ≤ byteLength left') :
    ∃ middle, left' = left ++ middle ∧ right = middle ++ right' := by
  rcases List.append_eq_append_iff.mp same with ⟨middle, split, rest⟩ | ⟨more, rfl, rest⟩
  · exact ⟨middle, split, rest⟩
  · rw [byteLength_append] at length
    rcases eq_nil_of_byteLength_eq_zero (by omega : byteLength more = 0) with rfl
    exact ⟨[], by simp, by simpa using rest.symm⟩

/-- Texts of one length in bytes that both start a text are the same. -/
theorem eq_of_byteLength_eq {left right left' right' : List Char}
    (same : left ++ right = left' ++ right') (length : byteLength left = byteLength left') :
    left = left' ∧ right = right' := by
  rcases split_of_byteLength_le same (Nat.le_of_eq length) with ⟨middle, rfl, rfl⟩
  rw [byteLength_append] at length
  rw [eq_nil_of_byteLength_eq_zero (by omega : byteLength middle = 0)]
  simp

theorem split_of_mem_partsFrom {text : List Char} {offset : Nat} {word : Placed}
    (member : word ∈ PartKind.word.partsFrom offset text) :
    ∃ left right, text = left ++ (word.text ++ right) ∧ word.start = offset + byteLength left ∧
      StartsWord left ∧ word.text ≠ [] ∧ NoBlank word.text ∧ EndsWord right := by
  induction text using PartKind.word.partsInduction generalizing offset with
  | nil =>
      rw [PartKind.partsFrom_nil] at member
      cases member
  | pass c rest none ih =>
      rw [PartKind.partsFrom_pass none] at member
      rcases ih member with ⟨left, right, rfl, start, starts, some, inked, ends⟩
      refine ⟨c :: left, right, rfl, ?_, ?_, some, inked, ends⟩
      · rw [start, byteLength]
        omega
      · intro d last
        cases left with
        | nil =>
            rw [List.getLast?_singleton, Option.mem_some_iff] at last
            exact last ▸ leadingWord_eq_nil none
        | cons e left => exact @StartsWord.append [c] _ starts (List.cons_ne_nil e left) d last
  | take part rest lead some ih =>
      rw [PartKind.partsFrom_take lead some] at member
      have inked : NoBlank part := by
        rw [← lead]
        exact noBlank_leadingWord _
      have ends := endsWord_of_leadingWord lead
      rcases List.mem_cons.mp member with rfl | member
      · exact ⟨[], rest, rfl, rfl, .nil, some, inked, ends⟩
      · rcases ih member with ⟨left, right, rfl, start, starts, wordSome, wordInked, wordEnds⟩
        refine ⟨part ++ left, right, by simp, ?_, ?_, wordSome, wordInked, wordEnds⟩
        · rw [start, byteLength_append, Nat.add_assoc]
        · apply starts.append
          rintro rfl
          -- two words do not stand side by side
          rcases List.exists_cons_of_ne_nil wordSome with ⟨c, more, shape⟩
          have isBlank := ends c (by simp [shape])
          rw [wordInked c (by simp [shape])] at isBlank
          cases isBlank

/-- Each word of a text starts behind the one before it. -/
theorem words_pairwise (text : List Char) (offset : Nat) :
    (PartKind.word.partsFrom offset text).Pairwise fun first second =>
      first.stop ≤ second.start := by
  induction text using PartKind.word.partsInduction generalizing offset with
  | nil =>
      rw [PartKind.partsFrom_nil]
      exact .nil
  | pass c rest none ih =>
      rw [PartKind.partsFrom_pass none]
      exact ih _
  | take part rest lead some ih =>
      rw [PartKind.partsFrom_take lead some, List.pairwise_cons]
      exact ⟨fun later member => (PartKind.mem_partsFrom member).1, ih _⟩

/-- A word of a text, with what stands before and behind it. -/
theorem split_of_mem_words {left word right : List Char}
    (member : ⟨byteLength left, word⟩ ∈ words (left ++ (word ++ right))) :
    StartsWord left ∧ word ≠ [] ∧ NoBlank word ∧ EndsWord right := by
  rcases split_of_mem_partsFrom member with ⟨left', right', same, start, starts, some, inked, ends⟩
  rw [Nat.zero_add] at start
  rcases eq_of_byteLength_eq same start with ⟨rfl, behind⟩
  rw [List.append_cancel_left behind]
  exact ⟨starts, some, inked, ends⟩

theorem leadingWord_of_endsWord {word right : List Char} (inked : NoBlank word)
    (ends : EndsWord right) : leadingWord (word ++ right) = word := by
  have inside : ∀ c ∈ word, (!isBlank c) = true := by
    intro c member
    rw [inked c member]
    rfl
  have whole : leadingWord (word ++ []) = word ++ leadingWord [] :=
    List.takeWhile_append_of_pos inside
  rw [leadingWord_append ends, ← List.append_nil word, whole]
  rfl

/-- No word reaches over a place behind which a word can start. -/
theorem separates_of_startsWord {left : List Char} (starts : StartsWord left) (right : List Char) :
    PartKind.word.Separates left right := by
  refine PartKind.separates_of_keeps StartsWord ?_ ?_ starts
  · intro c rest none kept
    exact ⟨PartKind.word.inked c _ (leadingWord_eq_nil none), @StartsWord.of_append [c] rest kept⟩
  · intro part rest lead some kept
    have inked : NoBlank part := by
      rw [← lead]
      exact noBlank_leadingWord _
    refine ⟨leadingWord_of_endsWord inked ?_, kept.of_append⟩
    intro c member
    cases rest with
    | nil =>
        rw [List.append_nil] at kept
        exact absurd inked (kept.not_noBlank some)
    | cons d rest => exact endsWord_of_leadingWord lead c member

/-- The words of a text are those before one of them, this one, and those behind it. -/
theorem words_around {left word right : List Char} (starts : StartsWord left) (some : word ≠ [])
    (inked : NoBlank word) (ends : EndsWord right) :
    words (left ++ (word ++ right)) = words left ++ ⟨byteLength left, word⟩ ::
      PartKind.word.partsFrom (byteLength left + byteLength word) right := by
  rw [words, PartKind.parts, separates_of_startsWord starts, Nat.zero_add,
    PartKind.partsFrom_take (leadingWord_of_endsWord inked ends) some]
  rfl

end SearchCommands.Text
