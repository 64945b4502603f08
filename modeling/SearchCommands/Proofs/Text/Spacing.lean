import SearchCommands.Proofs.Text.Parts

/-!
# Spacing

Two texts can differ in the blanks between their words and at their ends.  Blanks in a pair of
quotation marks are no such blanks: the pair is a part of both texts as it stands.  A text and a
respaced one come apart into the same words and pairs, so whatever is read from the one can be read
from the other.
-/

namespace SearchCommands.Text

instance decidableAllBlank (text : List Char) : Decidable (AllBlank text) :=
  decidableForallMemText text

instance decidableNoBlank (text : List Char) : Decidable (NoBlank text) :=
  decidableForallMemText text

instance decidableStartsInked (text : List Char) : Decidable (StartsInked text) :=
  decidableForallMemFound text.head?

/-- The texts differ at most in the runs of blanks that stand outside of pairs of quotation marks.
Where one has a run, so has the other, except at the end, and what the two runs have in common is
given.  A last quotation mark without a partner is a character like others. -/
inductive Respaced (gaps : List Char → List Char → Prop) : List Char → List Char → Prop where
  | ends {blanks blanks' : List Char} (blank : AllBlank blanks) (blank' : AllBlank blanks') :
      Respaced gaps blanks blanks'
  | gap {blanks blanks' text text' : List Char} (some : blanks ≠ []) (some' : blanks' ≠ [])
      (blank : AllBlank blanks) (blank' : AllBlank blanks') (alike : gaps blanks blanks')
      (word : text ≠ []) (inked : StartsInked text) (rest : Respaced gaps text text') :
      Respaced gaps (blanks ++ text) (blanks' ++ text')
  | pair {inside text text' : List Char} (plain : '"' ∉ inside) (rest : Respaced gaps text text') :
      Respaced gaps (enclosed inside ++ text) (enclosed inside ++ text')
  | char {c : Char} {text text' : List Char} (inked : isBlank c = false)
      (single : c = '"' → '"' ∉ text) (rest : Respaced gaps text text') :
      Respaced gaps (c :: text) (c :: text')

namespace Respaced

variable {gaps : List Char → List Char → Prop} {text text' : List Char}

theorem count_quote (respaced : Respaced gaps text text') : text.count '"' = text'.count '"' := by
  induction respaced with
  | ends blank blank' => rw [blank.count_quote, blank'.count_quote]
  | gap _ _ blank blank' _ _ _ _ ih =>
      rw [List.count_append, List.count_append, blank.count_quote, blank'.count_quote, ih]
  | pair _ _ ih => rw [List.count_append, List.count_append, ih]
  | char _ _ _ ih => rw [List.count_cons, List.count_cons, ih]

theorem mem_quote_iff (respaced : Respaced gaps text text') : '"' ∈ text ↔ '"' ∈ text' := by
  rw [← List.count_pos_iff, ← List.count_pos_iff, respaced.count_quote]

/-- A text that starts with no blank starts with the same character after respacing. -/
theorem head?_eq (respaced : Respaced gaps text text') (inked : StartsInked text)
    (word : text ≠ []) : text'.head? = text.head? := by
  cases respaced with
  | ends blank _ => exact absurd (blank.eq_nil inked) word
  | @gap blanks _ _ _ some _ blank =>
      rcases List.exists_cons_of_ne_nil some with ⟨c, more, rfl⟩
      have isBlank := blank c List.mem_cons_self
      rw [inked c (by simp)] at isBlank
      cases isBlank
  | pair => rfl
  | char => rfl

theorem startsInked (respaced : Respaced gaps text text') (inked : StartsInked text)
    (word : text ≠ []) : StartsInked text' := by
  rw [StartsInked, respaced.head?_eq inked word]
  exact inked

theorem ne_nil (respaced : Respaced gaps text text') (inked : StartsInked text)
    (word : text ≠ []) : text' ≠ [] := by
  have head := respaced.head?_eq inked word
  rintro rfl
  rw [List.head?_nil, eq_comm, List.head?_eq_none_iff] at head
  exact word head

theorem symm (respaced : Respaced gaps text text') :
    Respaced (fun blanks blanks' => gaps blanks' blanks) text' text := by
  induction respaced with
  | ends blank blank' => exact .ends blank' blank
  | gap some some' blank blank' alike word inked rest ih =>
      exact .gap some' some blank' blank alike (rest.ne_nil inked word)
        (rest.startsInked inked word) ih
  | pair plain _ ih => exact .pair plain ih
  | char inked single rest ih =>
      exact .char inked (fun quote member => single quote (rest.mem_quote_iff.mpr member)) ih

theorem endsWord (respaced : Respaced gaps text text') (ends : EndsWord text) :
    EndsWord text' := by
  cases respaced with
  | ends _ blank' => exact .of_allBlank blank'
  | gap _ some' _ blank' => exact .append_of_ne_nil some' blank' _
  | pair => exact ends
  | char => exact ends

/-- A text that starts with no blank starts with a pair of quotation marks or with a character
outside of pairs. -/
theorem cons_cases {c : Char} (inked : isBlank c = false)
    (respaced : Respaced gaps (c :: text) text') :
    (∃ inside rest rest', '"' ∉ inside ∧ c :: text = enclosed inside ++ rest ∧
        text' = enclosed inside ++ rest' ∧ Respaced gaps rest rest') ∨
      (c = '"' → '"' ∉ text) ∧ ∃ rest', text' = c :: rest' ∧ Respaced gaps text rest' := by
  generalize whole : c :: text = start at respaced
  cases respaced with
  | ends blank =>
      rw [← whole] at blank
      rw [blank c List.mem_cons_self] at inked
      cases inked
  | gap some _ blank =>
      rcases List.exists_cons_of_ne_nil some with ⟨d, more, rfl⟩
      rw [List.cons_append, List.cons.injEq] at whole
      rw [whole.1, blank d List.mem_cons_self] at inked
      cases inked
  | @pair inside rest rest' plain respaced =>
      exact Or.inl ⟨inside, rest, rest', plain, rfl, rfl, respaced⟩
  | char _ single rest =>
      rw [List.cons.injEq] at whole
      rcases whole with ⟨rfl, rfl⟩
      exact Or.inr ⟨single, _, rfl, rest⟩

/-- A word without quotation marks is a part of both texts. -/
theorem split_word {word rest : List Char} (inked : NoBlank word) (plain : '"' ∉ word)
    (respaced : Respaced gaps (word ++ rest) text') :
    ∃ rest', text' = word ++ rest' ∧ Respaced gaps rest rest' := by
  induction word generalizing text' with
  | nil => exact ⟨text', rfl, respaced⟩
  | cons c word ih =>
      rw [List.mem_cons, not_or] at plain
      rw [List.cons_append] at respaced
      rcases respaced.cons_cases (inked c List.mem_cons_self) with
        ⟨inside, more, _, _, whole, _⟩ | ⟨_, more', rfl, onwards⟩
      · rw [enclosed, List.cons_append, List.cons.injEq] at whole
        exact absurd whole.1.symm plain.1
      · rcases ih (fun d member => inked d (List.mem_cons_of_mem c member)) plain.2 onwards with
          ⟨rest', rfl, beyond⟩
        exact ⟨rest', rfl, beyond⟩

/-- A word without quotation marks can be put in front of both texts. -/
theorem append_word {word : List Char} (inked : NoBlank word) (plain : '"' ∉ word)
    (respaced : Respaced gaps text text') : Respaced gaps (word ++ text) (word ++ text') := by
  induction word with
  | nil => exact respaced
  | cons c word ih =>
      rw [List.mem_cons, not_or] at plain
      refine .char (inked c List.mem_cons_self) ?_
        (ih (fun d member => inked d (List.mem_cons_of_mem c member)) plain.2)
      intro quote
      exact absurd quote.symm plain.1

/-- A pair of quotation marks is a part of both texts, with what it encloses. -/
theorem split_pair {inside rest : List Char} (plain : '"' ∉ inside)
    (respaced : Respaced gaps (enclosed inside ++ rest) text') :
    ∃ rest', text' = enclosed inside ++ rest' ∧ Respaced gaps rest rest' := by
  have start : enclosed inside ++ rest = '"' :: (inside ++ '"' :: rest) := by simp [enclosed]
  rw [start] at respaced
  rcases respaced.cons_cases isBlank_quote with
    ⟨inside', more, more', plain', whole, rfl, respaced⟩ | ⟨single, _⟩
  · rw [← start] at whole
    have same := congrArg leadingPair whole
    rw [leadingPair_enclosed plain, leadingPair_enclosed plain'] at same
    rw [same, List.append_cancel_left_eq] at whole
    subst whole
    exact ⟨more', by rw [same], respaced⟩
  · exact absurd (by simp) (single rfl)

/-- Both texts have a run of blanks before a word. -/
theorem split_gap {blanks rest : List Char} (some : blanks ≠ []) (blank : AllBlank blanks)
    (inked : StartsInked rest) (word : rest ≠ []) (respaced : Respaced gaps (blanks ++ rest) text') :
    ∃ blanks' rest', text' = blanks' ++ rest' ∧ blanks' ≠ [] ∧ AllBlank blanks' ∧
      Respaced gaps rest rest' := by
  generalize whole : blanks ++ rest = text at respaced
  cases respaced with
  | ends allBlank =>
      rw [← whole] at allBlank
      exact absurd (allBlank.of_append_right.eq_nil inked) word
  | gap _ some' blank' blank'' _ _ inked' respaced =>
      rcases blanks_unique blank blank' inked inked' whole with ⟨rfl, rfl⟩
      exact ⟨_, _, rfl, some', blank'', respaced⟩
  | pair plain _ =>
      rcases List.exists_cons_of_ne_nil some with ⟨c, more, rfl⟩
      rw [enclosed, List.cons_append, List.cons_append, List.cons.injEq] at whole
      have quoteBlank := blank c List.mem_cons_self
      rw [whole.1, isBlank_quote] at quoteBlank
      cases quoteBlank
  | char inked' _ _ =>
      rcases List.exists_cons_of_ne_nil some with ⟨c, more, rfl⟩
      rw [List.cons_append, List.cons.injEq] at whole
      rw [← whole.1, blank c List.mem_cons_self] at inked'
      cases inked'

/-- Blanks can be put at the ends of both texts. -/
theorem append_blanks (respaced : Respaced gaps text text') {blanks blanks' : List Char}
    (blank : AllBlank blanks) (blank' : AllBlank blanks') :
    Respaced gaps (text ++ blanks) (text' ++ blanks') := by
  induction respaced with
  | ends endBlank endBlank' => exact .ends (endBlank.append blank) (endBlank'.append blank')
  | gap some some' gapBlank gapBlank' alike word inked _ ih =>
      rw [List.append_assoc, List.append_assoc]
      exact .gap some some' gapBlank gapBlank' alike (by simp [word]) (inked.append word) ih
  | pair plain _ ih =>
      rw [List.append_assoc, List.append_assoc]
      exact .pair plain ih
  | char inked single _ ih =>
      refine .char inked ?_ ih
      intro quote member
      rcases List.mem_append.mp member with member | member
      · exact single quote member
      · have count := blank.count_quote
        rw [List.count_eq_zero] at count
        exact count member

end Respaced

theorem exists_trimEnd (text : List Char) :
    ∃ right, text = trimEnd text ++ right ∧ AllBlank right ∧ EndsInked (trimEnd text) := by
  rcases exists_blanks text.reverse with ⟨right, core, split, blank, inked⟩
  have trimEq : trimEnd text = core.reverse := by
    rw [trimEnd, split, dropWhile_blanks blank inked]
  refine ⟨right.reverse, ?_, ?_, ?_⟩
  · rw [trimEq, ← List.reverse_append, ← split, List.reverse_reverse]
  · exact fun c member => blank c (List.mem_reverse.mp member)
  · rw [trimEq, EndsInked, List.getLast?_reverse]
    exact inked

theorem trimEnd_of_allBlank {blanks : List Char} (blank : AllBlank blanks) :
    trimEnd blanks = [] := by
  have none : trimEnd ([] ++ blanks) = trimEnd [] := trimEnd_append_blank blank
  simpa [trimEnd] using none

/-- Trimming the end of a text goes no further than to its last part that is not all blank. -/
theorem trimEnd_append {left right : List Char} (some : trimEnd right ≠ [] ∨ EndsInked left) :
    trimEnd (left ++ right) = left ++ trimEnd right := by
  by_cases blank : trimEnd right = []
  · have inked := some.resolve_left (not_not_intro blank)
    rcases exists_trimEnd right with ⟨blanks, split, allBlank, _⟩
    rw [blank, List.nil_append] at split
    subst split
    rw [trimEnd_append_blank allBlank, blank, List.append_nil]
    have starts : StartsInked left.reverse := by
      rw [StartsInked, List.head?_reverse]
      exact inked
    have drop : left.reverse.dropWhile isBlank = left.reverse := dropWhile_blanks .nil starts
    rw [trimEnd, drop, List.reverse_reverse]
  · have nonempty : (right.reverse.dropWhile isBlank).isEmpty = false := by
      simpa [trimEnd] using blank
    rw [trimEnd, List.reverse_append, List.dropWhile_append, nonempty]
    simp [trimEnd]

theorem trim_blanks_append {blanks : List Char} (blank : AllBlank blanks) (text : List Char) :
    trim (blanks ++ text) = trim text := by
  rw [trim, trim, List.dropWhile_append_of_pos blank]

theorem trim_append_blanks {blanks : List Char} (blank : AllBlank blanks) (text : List Char) :
    trim (text ++ blanks) = trim text := by
  rcases exists_blanks text with ⟨lead, rest, rfl, leadBlank, inked⟩
  by_cases nothing : rest = []
  · rw [nothing, List.append_nil, trim_eq_nil_iff.mpr leadBlank,
      trim_eq_nil_iff.mpr (leadBlank.append blank)]
  · rw [List.append_assoc, trim, trim, dropWhile_blanks leadBlank (inked.append nothing),
      dropWhile_blanks leadBlank inked]
    exact trimEnd_append_blank blank

namespace Respaced

variable {gaps : List Char → List Char → Prop} {text text' : List Char}

theorem trimEnd (respaced : Respaced gaps text text') :
    Respaced gaps (Text.trimEnd text) (Text.trimEnd text') := by
  induction respaced with
  | ends blank blank' =>
      rw [trimEnd_of_allBlank blank, trimEnd_of_allBlank blank']
      exact .ends .nil .nil
  | @gap blanks blanks' text text' some some' blank blank' alike word inked rest ih =>
      -- a text that starts with no blank keeps its first character
      have keeps {text : List Char} (inked : StartsInked text) (word : text ≠ []) :
          Text.trimEnd text ≠ [] := by
        intro empty
        rcases exists_trimEnd text with ⟨right, split, allBlank, _⟩
        rw [empty, List.nil_append] at split
        rw [← split] at allBlank
        exact word (allBlank.eq_nil inked)
      have word' := rest.ne_nil inked word
      rw [trimEnd_append (Or.inl (keeps inked word)),
        trimEnd_append (Or.inl (keeps (rest.startsInked inked word) word'))]
      refine .gap some some' blank blank' alike (keeps inked word) ?_ ih
      rcases exists_trimEnd text with ⟨right, split, _, _⟩
      intro c member
      apply inked c
      rw [split, List.head?_append, Option.mem_def.mp member]
      rfl
  | @pair inside _ _ plain _ ih =>
      have ends := (trimmed_enclosed inside).2
      rw [trimEnd_append (Or.inr ends), trimEnd_append (Or.inr ends)]
      exact .pair plain ih
  | @char c text text' inked single _ ih =>
      have ends : EndsInked [c] := by simpa [EndsInked] using inked
      have cons (text : List Char) : Text.trimEnd (c :: text) = c :: Text.trimEnd text :=
        @trimEnd_append [c] text (Or.inr ends)
      rw [cons, cons]
      refine .char inked ?_ ih
      intro quote member
      rcases exists_trimEnd text with ⟨right, split, _, _⟩
      apply single quote
      rw [split]
      exact List.mem_append_left right member

theorem dropBlanks (respaced : Respaced gaps text text') :
    Respaced gaps (text.dropWhile isBlank) (text'.dropWhile isBlank) := by
  cases respaced with
  | ends blank blank' =>
      have none {blanks : List Char} (blank : AllBlank blanks) : blanks.dropWhile isBlank = [] := by
        have dropped := dropWhile_blanks blank (by simp [StartsInked] : StartsInked [])
        rwa [List.append_nil] at dropped
      rw [none blank, none blank']
      exact .ends .nil .nil
  | gap some some' blank blank' alike word inked rest =>
      rw [dropWhile_blanks blank inked, dropWhile_blanks blank' (rest.startsInked inked word)]
      exact rest
  | pair plain rest => exact .pair plain rest
  | char inked single rest =>
      rw [List.dropWhile_cons_of_neg (by simp [inked]), List.dropWhile_cons_of_neg (by simp [inked])]
      exact .char inked single rest

theorem trim (respaced : Respaced gaps text text') :
    Respaced gaps (Text.trim text) (Text.trim text') :=
  respaced.dropBlanks.trimEnd

/-- Texts that are respaced once they are trimmed are respaced where their blanks end. -/
theorem of_trim (same : Respaced gaps (Text.trim text) (Text.trim text')) :
    ∃ blanks rest blanks' rest', text = blanks ++ rest ∧ text' = blanks' ++ rest' ∧
      AllBlank blanks ∧ AllBlank blanks' ∧ StartsInked rest ∧ StartsInked rest' ∧
      Respaced gaps rest rest' := by
  rcases exists_blanks text with ⟨blanks, rest, rfl, blank, inked⟩
  rcases exists_blanks text' with ⟨blanks', rest', rfl, blank', inked'⟩
  refine ⟨blanks, rest, blanks', rest', rfl, rfl, blank, blank', inked, inked', ?_⟩
  rw [Text.trim, Text.trim, dropWhile_blanks blank inked, dropWhile_blanks blank' inked'] at same
  rcases exists_trimEnd rest with ⟨right, split, rightBlank, _⟩
  rcases exists_trimEnd rest' with ⟨right', split', rightBlank', _⟩
  rw [split, split']
  exact same.append_blanks rightBlank rightBlank'

/-- Texts with the same runs of blanks are the same up to their ends. -/
theorem eq_of_endsInked (respaced : Respaced Eq text text') (inked : EndsInked text)
    (inked' : EndsInked text') : text = text' := by
  induction respaced with
  | ends blank blank' =>
      rw [blank.eq_nil_of_endsInked inked, blank'.eq_nil_of_endsInked inked']
  | gap _ _ _ _ same _ _ _ ih => rw [same, ih inked.of_append inked'.of_append]
  | pair _ _ ih => rw [ih inked.of_append inked'.of_append]
  | @char c text text' _ _ _ ih =>
      have rest {text : List Char} (inked : EndsInked (c :: text)) : EndsInked text :=
        @EndsInked.of_append [c] text inked
      rw [ih (rest inked) (rest inked')]

/-- Texts with the same runs of blanks differ in blanks at their ends alone. -/
theorem exists_ends (respaced : Respaced Eq text text') :
    ∃ core blanks blanks', text = core ++ blanks ∧ text' = core ++ blanks' ∧ AllBlank blanks ∧
      AllBlank blanks' := by
  rcases exists_trimEnd text with ⟨blanks, split, blank, inked⟩
  rcases exists_trimEnd text' with ⟨blanks', split', blank', inked'⟩
  have core := respaced.trimEnd.eq_of_endsInked inked inked'
  exact ⟨_, blanks, blanks', split, core ▸ split', blank, blank'⟩

theorem refl (closed : ∀ blanks, gaps blanks blanks) (text : List Char) :
    Respaced gaps text text := by
  -- a pair of quotation marks is one step, so the induction is on the length of the text
  generalize size : text.length = length
  induction length using Nat.strongRecOn generalizing text with
  | _ length ih =>
      rcases exists_blanks text with ⟨blanks, word, rfl, blank, inked⟩
      cases word with
      | nil =>
          rw [List.append_nil]
          exact .ends blank blank
      | cons c rest =>
          rw [List.length_append, List.length_cons] at size
          have isInked := inked c rfl
          have fromWord : Respaced gaps (c :: rest) (c :: rest) := by
            by_cases paired : c = '"' ∧ '"' ∈ rest
            · rcases paired with ⟨rfl, closing⟩
              rcases List.eq_append_cons_of_mem closing with ⟨inside, more, rfl, plain⟩
              have shape : '"' :: (inside ++ '"' :: more) = enclosed inside ++ more := by
                simp [enclosed]
              rw [List.length_append, List.length_cons] at size
              rw [shape]
              exact .pair plain (ih more.length (by omega) more rfl)
            · exact .char isInked (fun quote member => paired ⟨quote, member⟩)
                (ih rest.length (by omega) rest rfl)
          by_cases none : blanks = []
          · rw [none]
            exact fromWord
          · exact .gap none none blank blank (closed blanks) (List.cons_ne_nil _ _) inked fromWord

end Respaced

end SearchCommands.Text
