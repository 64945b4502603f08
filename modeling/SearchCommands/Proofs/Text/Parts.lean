import SearchCommands.Proofs.Text.Words

/-!
# Parts of a text and their places

A text has words, which blanks separate, and it has texts in quotation marks, where the marks pair
up from the start of the text.  Both are parts of which at most one starts at a place, and they are
listed by going through the text once.  The list depends on what surrounds a text only as far as a
part can reach beyond it: `PartKind.Separates` says that no part reaches over a place.
-/

namespace SearchCommands.Text

theorem byteLength_reverse (text : List Char) : byteLength text.reverse = byteLength text := by
  induction text with
  | nil => rfl
  | cons c rest ih =>
      rw [List.reverse_cons, byteLength_append, ih]
      simp only [byteLength]
      omega

theorem byteLength_pos {text : List Char} (nonempty : text ≠ []) : 0 < byteLength text := by
  cases text with
  | nil => exact absurd rfl nonempty
  | cons c rest => exact Nat.add_pos_left c.utf8Size_pos _

/-- A part of a text, with the number of bytes before it. -/
structure Placed where
  start : Nat
  text : List Char
  deriving DecidableEq, Repr

/-- The number of bytes up to the end of the part. -/
def Placed.stop (part : Placed) : Nat := part.start + byteLength part.text

/-- A kind of parts, which never start with a blank. -/
structure PartKind where
  /-- The part with which a text starts, empty if it starts with none. -/
  lead : List Char → List Char
  leads : ∀ text, ∃ rest, text = lead text ++ rest
  inked : ∀ c rest, isBlank c = true → lead (c :: rest) = []

namespace PartKind

variable {kind : PartKind}

/-- The parts of a text that stands after the given number of bytes, each of them behind the one
before it. -/
def partsFrom (kind : PartKind) (offset : Nat) (text : List Char) : List Placed :=
  match text with
  | [] => []
  | c :: rest =>
      match kind.lead (c :: rest) with
      | [] => kind.partsFrom (offset + c.utf8Size) rest
      | d :: more =>
          ⟨offset, d :: more⟩ ::
            kind.partsFrom (offset + byteLength (d :: more)) (rest.drop more.length)
termination_by text.length
decreasing_by all_goals simp; try omega

/-- The parts of a text. -/
def parts (kind : PartKind) (text : List Char) : List Placed := kind.partsFrom 0 text

theorem partsFrom_nil (kind : PartKind) (offset : Nat) : kind.partsFrom offset [] = [] := by
  rw [partsFrom]

theorem partsFrom_pass {c : Char} {rest : List Char} (none : kind.lead (c :: rest) = [])
    (offset : Nat) :
    kind.partsFrom offset (c :: rest) = kind.partsFrom (offset + c.utf8Size) rest := by
  rw [partsFrom, none]

theorem partsFrom_take {part rest : List Char} (lead : kind.lead (part ++ rest) = part)
    (nonempty : part ≠ []) (offset : Nat) :
    kind.partsFrom offset (part ++ rest) =
      ⟨offset, part⟩ :: kind.partsFrom (offset + byteLength part) rest := by
  cases part with
  | nil => exact absurd rfl nonempty
  | cons c more =>
      rw [List.cons_append] at lead ⊢
      rw [partsFrom, lead]
      simp

/-- To prove something of the parts of a text, follow the list of them. -/
theorem partsInduction {motive : List Char → Prop} (nil : motive [])
    (pass : ∀ c rest, kind.lead (c :: rest) = [] → motive rest → motive (c :: rest))
    (take : ∀ part rest, kind.lead (part ++ rest) = part → part ≠ [] → motive rest →
      motive (part ++ rest)) (text : List Char) : motive text := by
  generalize size : text.length = length
  induction length using Nat.strongRecOn generalizing text with
  | _ length ih =>
      cases text with
      | nil => exact nil
      | cons c rest =>
          rcases kind.leads (c :: rest) with ⟨more, split⟩
          by_cases empty : kind.lead (c :: rest) = []
          · exact pass c rest empty (ih rest.length (by simp [← size]) rest rfl)
          · rw [split]
            apply take _ more (by rw [← split]) empty
            refine ih more.length ?_ more rfl
            have lengths := congrArg List.length split
            have positive := List.length_pos_iff.mpr empty
            rw [List.length_append] at lengths
            omega

/-- Parts are not empty and lie inside the text. -/
theorem mem_partsFrom {text : List Char} {offset : Nat} {part : Placed}
    (member : part ∈ kind.partsFrom offset text) :
    offset ≤ part.start ∧ part.text ≠ [] ∧ part.stop ≤ offset + byteLength text := by
  induction text using kind.partsInduction generalizing offset with
  | nil =>
      rw [partsFrom_nil] at member
      cases member
  | pass c rest none ih =>
      rw [partsFrom_pass none] at member
      rcases ih member with ⟨start, some, stop⟩
      rw [byteLength]
      exact ⟨by omega, some, by omega⟩
  | take own rest lead nonempty ih =>
      rw [partsFrom_take lead nonempty] at member
      rw [byteLength_append]
      rcases List.mem_cons.mp member with rfl | member
      · exact ⟨Nat.le_refl _, nonempty, by simp only [Placed.stop]; omega⟩
      · rcases ih member with ⟨start, some, stop⟩
        exact ⟨by omega, some, by omega⟩

/-- The texts of the parts do not depend on what stands before. -/
theorem texts_partsFrom (text : List Char) (offset offset' : Nat) :
    (kind.partsFrom offset text).map Placed.text =
      (kind.partsFrom offset' text).map Placed.text := by
  induction text using kind.partsInduction generalizing offset offset' with
  | nil => rw [partsFrom_nil, partsFrom_nil]
  | pass c rest none ih =>
      rw [partsFrom_pass none, partsFrom_pass none]
      exact ih _ _
  | take part rest lead nonempty ih =>
      rw [partsFrom_take lead nonempty, partsFrom_take lead nonempty, List.map_cons, List.map_cons]
      exact congrArg _ (ih _ _)

/-- No part reaches from the one text into the other, which follows it. -/
def Separates (kind : PartKind) (left right : List Char) : Prop :=
  ∀ offset, kind.partsFrom offset (left ++ right) =
    kind.partsFrom offset left ++ kind.partsFrom (offset + byteLength left) right

theorem Separates.nil_left (kind : PartKind) (right : List Char) : kind.Separates [] right := by
  intro offset
  simp [partsFrom_nil, byteLength]

/-- A text separates from the next one if no part of it would be another in front of that.  What
has to be known of the text is kept from one part to the next. -/
theorem separates_of_keeps (keeps : List Char → Prop) {right : List Char}
    (pass : ∀ c rest, kind.lead (c :: rest) = [] → keeps (c :: rest) →
      kind.lead (c :: (rest ++ right)) = [] ∧ keeps rest)
    (take : ∀ part rest, kind.lead (part ++ rest) = part → part ≠ [] → keeps (part ++ rest) →
      kind.lead (part ++ (rest ++ right)) = part ∧ keeps rest)
    {left : List Char} (kept : keeps left) : kind.Separates left right := by
  intro offset
  induction left using kind.partsInduction generalizing offset with
  | nil => exact Separates.nil_left kind right offset
  | pass c rest none ih =>
      rcases pass c rest none kept with ⟨none', restKept⟩
      rw [List.cons_append, partsFrom_pass none', partsFrom_pass none, ih restKept, byteLength,
        Nat.add_assoc]
  | take part rest lead nonempty ih =>
      rcases take part rest lead nonempty kept with ⟨lead', restKept⟩
      rw [List.append_assoc, partsFrom_take lead' nonempty, partsFrom_take lead nonempty,
        ih restKept, byteLength_append, Nat.add_assoc, List.cons_append]

theorem partsFrom_blanks {blanks : List Char} (blank : AllBlank blanks) (rest : List Char)
    (offset : Nat) :
    kind.partsFrom offset (blanks ++ rest) =
      kind.partsFrom (offset + byteLength blanks) rest := by
  induction blanks generalizing offset with
  | nil => rfl
  | cons c blanks ih =>
      have tail : AllBlank blanks := fun d member => blank d (List.mem_cons_of_mem c member)
      rw [List.cons_append, partsFrom_pass (kind.inked c _ (blank c (by simp))), ih tail,
        byteLength, Nat.add_assoc]

theorem partsFrom_of_allBlank {blanks : List Char} (blank : AllBlank blanks) (offset : Nat) :
    kind.partsFrom offset blanks = [] := by
  have all := kind.partsFrom_blanks blank [] offset
  rwa [List.append_nil, partsFrom_nil] at all

/-- Trimming leaves the parts as they are, if blanks at the end separate from what is before. -/
theorem texts_trim (blanksApart : ∀ text blanks, AllBlank blanks → kind.Separates text blanks)
    (text : List Char) (offset : Nat) :
    (kind.partsFrom offset (trim text)).map Placed.text =
      (kind.partsFrom offset text).map Placed.text := by
  rcases exists_trim text with ⟨left, right, split, leftBlank, rightBlank, _⟩
  generalize trim text = core at split
  subst split
  rw [List.append_assoc, partsFrom_blanks leftBlank, blanksApart _ _ rightBlank,
    partsFrom_of_allBlank rightBlank, List.append_nil]
  exact texts_partsFrom core _ _

end PartKind

/-- The word that a text starts with: everything up to the first blank. -/
def leadingWord (text : List Char) : List Char := text.takeWhile fun c => !isBlank c

/-- The words of a text: what stands between blanks. -/
def PartKind.word : PartKind where
  lead := leadingWord
  leads text := ⟨_, List.takeWhile_append_dropWhile.symm⟩
  inked c rest blank := by simp [leadingWord, blank]

/-- The words of a text, with their places. -/
def words (text : List Char) : List Placed := PartKind.word.parts text

theorem leadingWord_eq_nil {c : Char} {rest : List Char} (none : leadingWord (c :: rest) = []) :
    isBlank c = true := by
  rw [leadingWord, List.takeWhile_cons] at none
  split at none
  · cases none
  · rename_i blank
    simpa using blank

theorem noBlank_leadingWord (text : List Char) : NoBlank (leadingWord text) := by
  intro c member
  have inked := List.all_eq_true.mp List.all_takeWhile c member
  simpa using inked

theorem endsWord_of_leadingWord {word rest : List Char}
    (lead : leadingWord (word ++ rest) = word) : EndsWord rest := by
  have split : leadingWord (word ++ rest) ++ (word ++ rest).dropWhile (fun c => !isBlank c) =
      word ++ rest := List.takeWhile_append_dropWhile
  rw [lead, List.append_cancel_left_eq] at split
  intro c member
  have stops := List.head?_dropWhile_not (fun c => !isBlank c) (word ++ rest)
  rw [split, Option.mem_def.mp member] at stops
  simpa using stops

/-- What follows the word that a text starts with does not add to it, if it starts with a blank. -/
theorem leadingWord_append {right : List Char} (ends : EndsWord right) (text : List Char) :
    leadingWord (text ++ right) = leadingWord text := by
  induction text with
  | nil =>
      cases right with
      | nil => rfl
      | cons c rest => simp [leadingWord, ends c (by simp)]
  | cons c text ih =>
      simp only [leadingWord, List.cons_append, List.takeWhile_cons] at ih ⊢
      rw [ih]

/-- No word reaches over the end of a word. -/
theorem word_separates {right : List Char} (ends : EndsWord right) (left : List Char) :
    PartKind.word.Separates left right := by
  refine PartKind.separates_of_keeps (fun _ => True) ?_ ?_ trivial
  · intro c rest none _
    exact ⟨(leadingWord_append ends (c :: rest)).trans none, trivial⟩
  · intro part rest lead _ _
    rw [← List.append_assoc]
    exact ⟨(leadingWord_append ends (part ++ rest)).trans lead, trivial⟩

/-- The words of a text are the nonempty pieces into which its blanks cut it. -/
theorem texts_words (text : List Char) :
    (words text).map Placed.text =
      (text.splitOnP isBlank).filter fun piece => !piece.isEmpty := by
  rw [words, PartKind.parts]
  generalize 0 = offset
  induction text using PartKind.word.partsInduction generalizing offset with
  | nil => rw [PartKind.partsFrom_nil, List.splitOnP_nil]; rfl
  | pass c rest none ih =>
      have blank := leadingWord_eq_nil none
      rw [PartKind.partsFrom_pass none, ih, List.splitOnP_cons_eq_if_modifyHead, if_pos blank,
        List.filter_cons_of_neg (by simp)]
  | take word rest lead nonempty ih =>
      have inked : NoBlank word := by
        rw [← lead]
        exact noBlank_leadingWord _
      have single := List.splitOnP_eq_singleton inked
      have kept : [word].filter (fun piece => !piece.isEmpty) = [word] :=
        List.filter_eq_self.mpr (by simpa using nonempty)
      rw [PartKind.partsFrom_take lead nonempty, List.map_cons, ih]
      cases rest with
      | nil => rw [List.append_nil, single, kept, List.splitOnP_nil]; rfl
      | cons c rest =>
          have blank := endsWord_of_leadingWord lead c rfl
          rw [List.splitOnP_append_cons word rest blank, single, List.filter_append, kept,
            List.splitOnP_cons_eq_if_modifyHead, if_pos blank, List.filter_cons_of_neg (by simp)]
          rfl

/-- The pair of quotation marks that a text starts with, and what is inside. -/
def leadingPair : List Char → List Char
  | [] => []
  | c :: rest =>
      if c = '"' ∧ '"' ∈ rest then enclosed (rest.takeWhile fun d => d != '"') else []

theorem takeWhile_quote {inside rest : List Char} (plain : '"' ∉ inside) :
    (inside ++ '"' :: rest).takeWhile (fun d => d != '"') = inside := by
  rw [List.takeWhile_append_of_pos]
  · simp
  · intro c member
    rw [bne_iff_ne]
    rintro rfl
    exact plain member

/-- The first two quotation marks of a text that starts with one. -/
theorem leadingPair_enclosed {inside : List Char} (plain : '"' ∉ inside) (rest : List Char) :
    leadingPair (enclosed inside ++ rest) = enclosed inside := by
  have shape : enclosed inside ++ rest = '"' :: (inside ++ '"' :: rest) := by simp [enclosed]
  rw [shape, leadingPair, if_pos ⟨rfl, by simp⟩, takeWhile_quote plain]

theorem leadingPair_cases (text : List Char) :
    leadingPair text = [] ∧ (text.head? = some '"' → text.count '"' = 1) ∨
      ∃ inside rest, '"' ∉ inside ∧ text = enclosed inside ++ rest := by
  cases text with
  | nil => exact Or.inl ⟨rfl, by simp⟩
  | cons c rest =>
      by_cases pair : c = '"' ∧ '"' ∈ rest
      · rcases pair with ⟨rfl, closed⟩
        rcases List.eq_append_cons_of_mem closed with ⟨inside, after, rfl, plain⟩
        exact Or.inr ⟨inside, after, plain, by simp [enclosed]⟩
      · refine Or.inl ⟨by rw [leadingPair, if_neg pair], ?_⟩
        intro mark
        rw [List.head?_cons, Option.some.injEq] at mark
        have single : '"' ∉ rest := fun closed => pair ⟨mark, closed⟩
        rw [mark, List.count_cons_self, List.count_eq_zero.mpr single]

/-- The texts in quotation marks.  The marks pair up from the start of a text; a last mark without
a partner encloses nothing. -/
def PartKind.pair : PartKind where
  lead := leadingPair
  leads text := by
    rcases leadingPair_cases text with ⟨none, _⟩ | ⟨inside, rest, plain, rfl⟩
    · exact ⟨text, by rw [none, List.nil_append]⟩
    · exact ⟨rest, by rw [leadingPair_enclosed plain]⟩
  inked c rest blank := by
    rw [leadingPair, if_neg]
    rintro ⟨rfl, _⟩
    rw [isBlank_quote] at blank
    cases blank

/-- The texts in quotation marks, with the marks and with their places. -/
def quotedTexts (text : List Char) : List Placed := PartKind.pair.parts text

theorem pair_lead (text : List Char) : PartKind.pair.lead text = leadingPair text := rfl

theorem leadingPair_of_ne {c : Char} (different : c ≠ '"') (rest : List Char) :
    leadingPair (c :: rest) = [] := by
  rw [leadingPair, if_neg fun pair => different pair.1]

/-- No pair of quotation marks reaches over a place that an even number of marks precedes, or no
mark follows. -/
theorem pair_separates {left right : List Char}
    (apart : left.count '"' % 2 = 0 ∨ '"' ∉ right) : PartKind.pair.Separates left right := by
  refine PartKind.separates_of_keeps (fun text => text.count '"' % 2 = 0 ∨ '"' ∉ right) ?_ ?_ apart
  · intro c rest none kept
    rw [pair_lead] at none ⊢
    by_cases mark : c = '"'
    · -- a mark without a partner is the only one, so the number is odd and none may follow
      subst mark
      have single : rest.count '"' = 0 := by
        rcases leadingPair_cases ('"' :: rest) with ⟨_, one⟩ | ⟨inside, after, plain, split⟩
        · have marks := one rfl
          rw [List.count_cons_self] at marks
          omega
        · have found : leadingPair ('"' :: rest) = enclosed inside := by
            rw [split, leadingPair_enclosed plain]
          rw [found] at none
          cases none
      have after : '"' ∉ right := by
        rcases kept with even | after
        · rw [List.count_cons_self, single] at even
          cases even
        · exact after
      refine ⟨?_, Or.inr after⟩
      rw [leadingPair, if_neg]
      rintro ⟨_, closed⟩
      rcases List.mem_append.mp closed with inside | inside
      · exact List.count_eq_zero.mp single inside
      · exact after inside
    · refine ⟨leadingPair_of_ne mark _, ?_⟩
      rwa [List.count_cons_of_ne mark] at kept
  · intro part rest lead nonempty kept
    rw [pair_lead] at lead ⊢
    rcases leadingPair_cases (part ++ rest) with ⟨none, _⟩ | ⟨inside, after, plain, split⟩
    · exact absurd (lead.symm.trans none) nonempty
    · rw [split, leadingPair_enclosed plain] at lead
      subst lead
      refine ⟨leadingPair_enclosed plain (rest ++ right), ?_⟩
      have marks := count_enclosed plain
      apply kept.imp_left
      intro even
      rw [List.count_append] at even
      omega

theorem parts_of_noQuote {text : List Char} (plain : '"' ∉ text) (offset : Nat) :
    PartKind.pair.partsFrom offset text = [] := by
  induction text generalizing offset with
  | nil => exact PartKind.pair.partsFrom_nil offset
  | cons c rest ih =>
      rw [List.mem_cons, not_or] at plain
      have none : PartKind.pair.lead (c :: rest) = [] := leadingPair_of_ne (Ne.symm plain.1) rest
      rw [PartKind.partsFrom_pass none]
      exact ih plain.2 _

/-- A text in quotation marks is the first part of a text that it starts. -/
theorem parts_enclosed {inside : List Char} (plain : '"' ∉ inside) (rest : List Char)
    (offset : Nat) : PartKind.pair.partsFrom offset (enclosed inside ++ rest) =
      ⟨offset, enclosed inside⟩ ::
        PartKind.pair.partsFrom (offset + byteLength (enclosed inside)) rest := by
  have lead : PartKind.pair.lead (enclosed inside ++ rest) = enclosed inside :=
    leadingPair_enclosed plain rest
  exact PartKind.partsFrom_take lead (by simp [enclosed]) offset

/-- The words of a text are those of the trimmed text. -/
theorem texts_words_trim (text : List Char) :
    (words (trim text)).map Placed.text = (words text).map Placed.text :=
  PartKind.texts_trim (fun _ _ blank => word_separates (EndsWord.of_allBlank blank) _) text 0

/-- The texts in quotation marks are those of the trimmed text. -/
theorem texts_quotedTexts_trim (text : List Char) :
    (quotedTexts (trim text)).map Placed.text = (quotedTexts text).map Placed.text := by
  refine PartKind.texts_trim (fun _ _ blank => pair_separates (Or.inr ?_)) text 0
  exact List.count_eq_zero.mp blank.count_quote

end SearchCommands.Text
