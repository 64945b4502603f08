import SearchCommands.Text.Blank

/-!
# Words and blanks

A text is cut into words by its blanks.  This file gives the facts on which all later arguments
about places in a text rest: a text has at most one first word, trimming takes exactly the blanks
at both ends away, and unquoting takes off the quotation marks that enclose a text.
-/

namespace SearchCommands.Text

/-- What holds of all characters of a text is decided character by character. -/
instance decidableForallMemText {p : Char → Prop} [DecidablePred p] (text : List Char) :
    Decidable (∀ c ∈ text, p c) := List.decidableBAll p text

instance decidableForallMemFound {p : Char → Prop} [DecidablePred p] (found : Option Char) :
    Decidable (∀ c ∈ found, p c) := found.decidableForallMem

/-- Every character of the text is a blank. -/
def AllBlank (text : List Char) : Prop := ∀ c ∈ text, isBlank c = true

/-- No character of the text is a blank. -/
def NoBlank (text : List Char) : Prop := ∀ c ∈ text, isBlank c = false

/-- The text does not start with a blank. -/
def StartsInked (text : List Char) : Prop := ∀ c ∈ text.head?, isBlank c = false

/-- The text does not end with a blank. -/
def EndsInked (text : List Char) : Prop := ∀ c ∈ text.getLast?, isBlank c = false

/-- A word can end before the text: the text is empty or starts with a blank. -/
def EndsWord (after : List Char) : Prop := ∀ c ∈ after.head?, isBlank c = true

/-- Trimming leaves the text as it is. -/
def Trimmed (text : List Char) : Prop := StartsInked text ∧ EndsInked text

theorem isBlank_quote : isBlank '"' = false := by decide

theorem AllBlank.nil : AllBlank [] := by simp [AllBlank]

theorem AllBlank.append {left right : List Char} (leftBlank : AllBlank left)
    (rightBlank : AllBlank right) : AllBlank (left ++ right) := by
  intro c member
  rcases List.mem_append.mp member with member | member
  · exact leftBlank c member
  · exact rightBlank c member

theorem AllBlank.of_append_right {left right : List Char} (blank : AllBlank (left ++ right)) :
    AllBlank right :=
  fun c member => blank c (List.mem_append_right left member)

theorem AllBlank.of_append_left {left right : List Char} (blank : AllBlank (left ++ right)) :
    AllBlank left :=
  fun c member => blank c (List.mem_append_left right member)

theorem AllBlank.count_quote {text : List Char} (blank : AllBlank text) : text.count '"' = 0 := by
  apply List.count_eq_zero.mpr
  intro member
  have := blank '"' member
  rw [isBlank_quote] at this
  exact Bool.noConfusion this

/-- A text of blanks that does not start with one is empty. -/
theorem AllBlank.eq_nil {text : List Char} (blank : AllBlank text) (inked : StartsInked text) :
    text = [] := by
  cases text with
  | nil => rfl
  | cons c rest =>
      have isInked := inked c (by simp)
      rw [blank c (by simp)] at isInked
      exact Bool.noConfusion isInked

/-- A text of blanks that does not end with one is empty. -/
theorem AllBlank.eq_nil_of_endsInked {text : List Char} (blank : AllBlank text)
    (inked : EndsInked text) : text = [] := by
  cases last : text.getLast? with
  | none => exact List.getLast?_eq_none_iff.mp last
  | some c =>
      have isInked := inked c last
      rw [blank c (List.mem_of_mem_getLast? last)] at isInked
      exact Bool.noConfusion isInked

theorem NoBlank.append {left right : List Char} (leftInked : NoBlank left)
    (rightInked : NoBlank right) : NoBlank (left ++ right) := by
  intro c member
  rcases List.mem_append.mp member with member | member
  · exact leftInked c member
  · exact rightInked c member

theorem NoBlank.startsInked {text : List Char} (inked : NoBlank text) : StartsInked text :=
  fun c member => inked c (List.mem_of_mem_head? member)

theorem NoBlank.endsInked {text : List Char} (inked : NoBlank text) : EndsInked text :=
  fun c member => inked c (List.mem_of_mem_getLast? member)

theorem NoBlank.trimmed {text : List Char} (inked : NoBlank text) : Trimmed text :=
  ⟨inked.startsInked, inked.endsInked⟩

theorem StartsInked.append {left right : List Char} (inked : StartsInked left)
    (nonempty : left ≠ []) : StartsInked (left ++ right) := by
  cases left with
  | nil => exact absurd rfl nonempty
  | cons d rest => exact inked

theorem EndsInked.append {left right : List Char} (inked : EndsInked right)
    (nonempty : right ≠ []) : EndsInked (left ++ right) := by
  intro c member
  apply inked c
  rw [List.getLast?_append, List.getLast?_eq_some_getLast nonempty] at member
  rwa [List.getLast?_eq_some_getLast nonempty]

theorem EndsInked.of_append {left right : List Char} (inked : EndsInked (left ++ right)) :
    EndsInked right := by
  intro c member
  apply inked c
  rw [List.getLast?_append, Option.mem_def.mp member]
  rfl

theorem EndsWord.nil : EndsWord [] := by simp [EndsWord]

theorem EndsWord.of_allBlank {text : List Char} (blank : AllBlank text) : EndsWord text :=
  fun c member => blank c (List.mem_of_mem_head? member)

theorem EndsWord.append_of_ne_nil {blanks : List Char} (nonempty : blanks ≠ [])
    (blank : AllBlank blanks) (rest : List Char) : EndsWord (blanks ++ rest) := by
  rcases List.exists_cons_of_ne_nil nonempty with ⟨d, more, rfl⟩
  intro c member
  rw [List.cons_append, List.head?_cons, Option.mem_some_iff] at member
  exact blank c (by simp [member])

theorem EndsWord.of_startsBlank {text : List Char} (blank : text.head?.any isBlank = true)
    (rest : List Char) : EndsWord (text ++ rest) := by
  cases text with
  | nil => cases blank
  | cons c more =>
      intro other member
      simp only [List.cons_append, List.head?_cons, Option.mem_some_iff] at member
      exact member ▸ blank

/-- A text has only one cut into a part in a class of characters and a rest that does not start in
the class. -/
theorem cut_unique {p : Char → Bool} {left left' right right' : List Char}
    (leftIn : ∀ c ∈ left, p c = true) (leftIn' : ∀ c ∈ left', p c = true)
    (rightOut : ∀ c ∈ right.head?, p c = false) (rightOut' : ∀ c ∈ right'.head?, p c = false)
    (same : left ++ right = left' ++ right') : left = left' ∧ right = right' := by
  induction left generalizing left' with
  | nil =>
      cases left' with
      | nil => exact ⟨rfl, same⟩
      | cons c rest =>
          simp only [List.nil_append] at same
          subst same
          have outside := rightOut c (by simp)
          rw [leftIn' c (by simp)] at outside
          exact Bool.noConfusion outside
  | cons c rest ih =>
      cases left' with
      | nil =>
          simp only [List.nil_append] at same
          subst same
          have outside := rightOut' c (by simp)
          rw [leftIn c (by simp)] at outside
          exact Bool.noConfusion outside
      | cons c' rest' =>
          simp only [List.cons_append, List.cons.injEq] at same
          rcases same with ⟨rfl, same⟩
          have tails := ih (fun d member => leftIn d (List.mem_cons_of_mem c member))
            (fun d member => leftIn' d (List.mem_cons_of_mem c member)) same
          exact ⟨by rw [tails.1], tails.2⟩

/-- A text has only one cut into leading blanks and a rest that starts with none. -/
theorem blanks_unique {blanks blanks' word word' : List Char} (blank : AllBlank blanks)
    (blank' : AllBlank blanks') (inked : StartsInked word) (inked' : StartsInked word')
    (same : blanks ++ word = blanks' ++ word') : blanks = blanks' ∧ word = word' :=
  cut_unique blank blank' inked inked' same

/-- A text has only one first word. -/
theorem word_unique {word word' rest rest' : List Char} (inked : NoBlank word)
    (inked' : NoBlank word') (ends : EndsWord rest) (ends' : EndsWord rest')
    (same : word ++ rest = word' ++ rest') : word = word' ∧ rest = rest' := by
  apply cut_unique (p := fun c => !isBlank c) _ _ _ _ same
  · intro c member
    simp [inked c member]
  · intro c member
    simp [inked' c member]
  · intro c member
    simp [ends c member]
  · intro c member
    simp [ends' c member]

/-- A text is some blanks followed by a rest that starts with none. -/
theorem exists_blanks (text : List Char) :
    ∃ blanks rest, text = blanks ++ rest ∧ AllBlank blanks ∧ StartsInked rest := by
  refine ⟨text.takeWhile isBlank, text.dropWhile isBlank, ?_, ?_, ?_⟩
  · exact List.takeWhile_append_dropWhile.symm
  · exact fun c member => List.all_eq_true.mp List.all_takeWhile c member
  · intro c member
    have := List.head?_dropWhile_not isBlank text
    rw [Option.mem_def.mp member] at this
    simpa using this

/-- Dropping the leading blanks drops exactly them. -/
theorem dropWhile_blanks {blanks rest : List Char} (blank : AllBlank blanks)
    (inked : StartsInked rest) : (blanks ++ rest).dropWhile isBlank = rest := by
  rw [List.dropWhile_append_of_pos blank]
  cases rest with
  | nil => rfl
  | cons c more => rw [List.dropWhile_cons_of_neg (by simp [inked c (by simp)])]

/-- Trimming takes blanks away at both ends and leaves none there. -/
theorem exists_trim (text : List Char) :
    ∃ left right, text = left ++ trim text ++ right ∧ AllBlank left ∧ AllBlank right ∧
      Trimmed (trim text) := by
  rcases exists_blanks text with ⟨left, rest, split, leftBlank, restInked⟩
  have drop : text.dropWhile isBlank = rest := by
    rw [split, dropWhile_blanks leftBlank restInked]
  rcases exists_blanks rest.reverse with ⟨right, core, splitEnd, rightBlank, coreInked⟩
  have dropEnd : rest.reverse.dropWhile isBlank = core := by
    rw [splitEnd, dropWhile_blanks rightBlank coreInked]
  have trimEq : trim text = core.reverse := by
    simp only [trim, trimEnd, drop, dropEnd]
  have restEq : rest = core.reverse ++ right.reverse := by
    rw [← List.reverse_append, ← splitEnd, List.reverse_reverse]
  refine ⟨left, right.reverse, ?_, leftBlank, ?_, ?_, ?_⟩
  · rw [trimEq, List.append_assoc, ← restEq, split]
  · intro c member
    exact rightBlank c (List.mem_reverse.mp member)
  · rw [trimEq]
    intro c member
    apply restInked c
    rw [restEq]
    cases h : core.reverse with
    | nil => rw [h] at member; simp at member
    | cons d more => rw [h] at member; simpa using member
  · rw [trimEq]
    intro c member
    apply coreInked c
    rwa [List.getLast?_reverse] at member

/-- Blanks around a text that neither starts nor ends with one are what trimming takes away. -/
theorem trim_eq {left core right : List Char} (leftBlank : AllBlank left) (trimmed : Trimmed core)
    (rightBlank : AllBlank right) : trim (left ++ core ++ right) = core := by
  by_cases empty : core = []
  · subst empty
    have blank : AllBlank (left ++ right) := leftBlank.append rightBlank
    have nothing : StartsInked [] := by simp [StartsInked]
    have drop : (left ++ right).dropWhile isBlank = [] := by
      simpa using dropWhile_blanks blank nothing
    simp [trim, drop, trimEnd]
  · have drop : (left ++ core ++ right).dropWhile isBlank = core ++ right := by
      rw [List.append_assoc]
      exact dropWhile_blanks leftBlank (trimmed.1.append empty)
    have reverseInked : StartsInked core.reverse := by
      intro c member
      apply trimmed.2 c
      rwa [List.head?_reverse] at member
    have dropEnd : core.reverse.dropWhile isBlank = core.reverse :=
      dropWhile_blanks AllBlank.nil reverseInked
    simp only [trim, drop]
    rw [trimEnd_append_blank rightBlank, trimEnd, dropEnd, List.reverse_reverse]

theorem trim_eq_self_iff {text : List Char} : trim text = text ↔ Trimmed text := by
  constructor
  · intro same
    rcases exists_trim text with ⟨_, _, _, _, _, trimmed⟩
    rwa [same] at trimmed
  · intro trimmed
    simpa using trim_eq AllBlank.nil trimmed AllBlank.nil

theorem trimmed_trim (text : List Char) : Trimmed (trim text) := by
  rcases exists_trim text with ⟨_, _, _, _, _, trimmed⟩
  exact trimmed

theorem mem_of_mem_trim {text : List Char} {c : Char} (member : c ∈ trim text) : c ∈ text := by
  rcases exists_trim text with ⟨left, right, split, _, _, _⟩
  rw [split]
  simp [member]

/-- Trimming leaves the quotation marks in the text. -/
theorem count_quote_trim (text : List Char) : (trim text).count '"' = text.count '"' := by
  rcases exists_trim text with ⟨left, right, split, leftBlank, rightBlank, _⟩
  generalize trim text = core at split
  rw [split, List.count_append, List.count_append, leftBlank.count_quote, rightBlank.count_quote,
    Nat.zero_add, Nat.add_zero]

theorem trim_eq_nil_iff {text : List Char} : trim text = [] ↔ AllBlank text := by
  rcases exists_trim text with ⟨left, right, split, leftBlank, rightBlank, trimmed⟩
  constructor
  · intro empty
    rw [split, empty]
    simpa using leftBlank.append rightBlank
  · intro blank
    rw [split] at blank
    exact blank.of_append_left.of_append_right.eq_nil trimmed.1

/-- A text in quotation marks, as it stands in a command. -/
def enclosed (text : List Char) : List Char := '"' :: (text ++ ['"'])

theorem trimmed_enclosed (text : List Char) : Trimmed (enclosed text) := by
  refine ⟨?_, ?_⟩
  · intro c member
    simp only [enclosed, List.head?_cons, Option.mem_some_iff] at member
    exact member ▸ isBlank_quote
  · intro c member
    have last : (enclosed text).getLast? = some '"' := by
      simp [enclosed, List.getLast?_cons]
    rw [last, Option.mem_some_iff] at member
    exact member ▸ isBlank_quote

theorem count_enclosed {text : List Char} (plain : '"' ∉ text) :
    (enclosed text).count '"' = 2 := by
  simp [enclosed, List.count_append, List.count_eq_zero.mpr plain]

theorem unquote_enclosed (text : List Char) : unquote (enclosed text) = trim text := by
  unfold unquote
  rw [trim_eq_self_iff.mpr (trimmed_enclosed text)]
  simp [enclosed]

/-- A word without quotation marks at its start is left as it is. -/
theorem unquote_word {word : List Char} (inked : NoBlank word) (plain : '"' ∉ word) :
    unquote word = word := by
  unfold unquote
  rw [trim_eq_self_iff.mpr inked.trimmed]
  cases word with
  | nil => rfl
  | cons c rest =>
      split
      · rename_i found
        simp only [List.cons.injEq] at found
        exact absurd (found.1 ▸ List.mem_cons_self) plain
      · rfl

end SearchCommands.Text
