import SearchCommands.Pattern
import SearchCommands.Proofs.Text.Letters

/-!
# Letter case

Two texts can differ in the case of their ASCII letters and in nothing else.  Nothing that reading
a command asks of a character tells a capital letter from the small one, so such texts are cut,
trimmed and unquoted at the same places.
-/

namespace SearchCommands.Text

/-- A capital letter is one of twenty-six; every other character is its own small letter. -/
theorem toLower_cases (c : Char) :
    (∃ n : Fin 26, c = Char.ofNat (n + 65) ∧ c.toLower = Char.ofNat (n + 97)) ∨
      c.toLower = c := by
  by_cases upper : c.val ≥ 'A'.val ∧ c.val ≤ 'Z'.val
  · left
    have low : 65 ≤ c.toNat := UInt32.le_iff_toNat_le.mp upper.1
    have high : c.toNat ≤ 90 := UInt32.le_iff_toNat_le.mp upper.2
    have small : ∀ n : Fin 26, (Char.ofNat (n + 65)).toLower = Char.ofNat (n + 97) := by decide
    have own : c = Char.ofNat ((⟨c.toNat - 65, by omega⟩ : Fin 26) + 65) := by
      rw [Nat.sub_add_cancel low, Char.ofNat_toNat]
    exact ⟨_, own, by rw [← small, ← own]⟩
  · right
    exact dif_neg upper

section Characters

variable {c d : Char} (same : c.toLower = d.toLower)

include same

/-- What does not tell the capital letters from the small ones, one by one, is the same for
characters that differ in their case alone. -/
theorem congr_toLower {α : Type} {f : Char → α}
    (each : ∀ n : Fin 26, f (Char.ofNat (n + 65)) = f (Char.ofNat (n + 97))) : f c = f d := by
  have lower (c : Char) : f c = f c.toLower := by
    rcases toLower_cases c with ⟨n, own, small⟩ | own
    · rw [small, ← each n, ← own]
    · rw [own]
  rw [lower c, lower d, same]

theorem eq_of_toLower_eq (noLetter : c.isAlpha = false) : d = c := by
  have letter : ∀ n : Fin 26, (Char.ofNat (n + 65)).isAlpha = true ∧
      (Char.ofNat (n + 97)).isAlpha = true := by decide
  rcases toLower_cases c with ⟨n, own, _⟩ | own
  · rw [own, (letter n).1] at noLetter
    cases noLetter
  · rcases toLower_cases d with ⟨n, _, small⟩ | own'
    · rw [← own, same, small, (letter n).2] at noLetter
      cases noLetter
    · rw [← own, same, own']

theorem isBlank_congr : isBlank c = isBlank d := congr_toLower same (by decide)

theorem isWordCharacter_congr : isWordCharacter c = isWordCharacter d :=
  congr_toLower same (by decide +kernel)

theorem foldCase_congr : foldCase c = foldCase d := congr_toLower same (by decide +kernel)

theorem utf8Size_congr : c.utf8Size = d.utf8Size := congr_toLower same (by decide)

theorem contains_congr (set : CharSet) : set.contains c = set.contains d := by
  apply congr_toLower same
  cases set <;> decide

/-- Only a quotation mark is a quotation mark in another letter case. -/
theorem eq_quote_iff : c = '"' ↔ d = '"' := by
  constructor
  · rintro rfl
    exact eq_of_toLower_eq same rfl
  · rintro rfl
    exact eq_of_toLower_eq same.symm rfl

end Characters

/-- The texts differ at most in the case of their ASCII letters. -/
abbrev SameButCase (text text' : List Char) : Prop :=
  List.Forall₂ (fun c d => c.toLower = d.toLower) text text'

/-- The strings differ at most in the case of their ASCII letters. -/
def EqualUpToCase (text text' : String) : Prop := text.toLower = text'.toLower

theorem sameButCase_iff {text text' : String} :
    SameButCase text.toList text'.toList ↔ EqualUpToCase text text' := by
  have lower (text : String) : text.toLower.toList = text.toList.map Char.toLower :=
    String.toList_map
  rw [EqualUpToCase, ← String.toList_inj, lower, lower, ← List.forall₂_eq_eq_eq, List.forall₂_map_left_iff,
    List.forall₂_map_right_iff]

instance (text text' : String) : Decidable (EqualUpToCase text text') :=
  decidable_of_iff _ sameButCase_iff

namespace SameButCase

theorem append {left left' right right' : List Char} (first : SameButCase left left')
    (second : SameButCase right right') : SameButCase (left ++ right) (left' ++ right') :=
  List.rel_append first second

variable {text text' : List Char} (same : SameButCase text text')

include same

theorem reverse : SameButCase text.reverse text'.reverse := List.rel_reverse same

theorem isEmpty_eq : text.isEmpty = text'.isEmpty := by
  cases same <;> rfl

theorem any_head? {p : Char → Bool} (respects : ∀ {c d}, c.toLower = d.toLower → p c = p d) :
    text.head?.any p = text'.head?.any p := by
  cases same with
  | nil => rfl
  | cons first _ => exact respects first

theorem mem_quote_iff : '"' ∈ text ↔ '"' ∈ text' := by
  induction same with
  | nil => rfl
  | cons first _ ih => rw [List.mem_cons, List.mem_cons, eq_comm, eq_quote_iff first, ih, eq_comm]

theorem count_quote : text.count '"' = text'.count '"' := by
  induction same with
  | nil => rfl
  | cons first _ ih =>
      rw [List.count_cons, List.count_cons, ih]
      simp only [beq_iff_eq, eq_quote_iff first]

theorem byteLength_eq : byteLength text = byteLength text' := by
  induction same with
  | nil => rfl
  | cons first _ ih => rw [byteLength, byteLength, utf8Size_congr first, ih]

theorem eq_of_noLetter (noLetter : ∀ c ∈ text, c.isAlpha = false) : text' = text := by
  induction same with
  | nil => rfl
  | @cons c d _ _ first _ ih =>
      have own : d = c := eq_of_toLower_eq first (noLetter c List.mem_cons_self)
      rw [own, ih fun e member => noLetter e (List.mem_cons_of_mem c member)]

theorem dropBlanks : SameButCase (text.dropWhile isBlank) (text'.dropWhile isBlank) := by
  induction same with
  | nil => exact .nil
  | cons first rest ih =>
      rw [List.dropWhile_cons, List.dropWhile_cons, isBlank_congr first]
      split
      · exact ih
      · exact .cons first rest

theorem trim : SameButCase (Text.trim text) (Text.trim text') :=
  same.dropBlanks.reverse.dropBlanks.reverse

theorem dropLast : SameButCase text.dropLast text'.dropLast := by
  rw [List.dropLast_eq_take, List.dropLast_eq_take, same.length_eq]
  exact List.forall₂_take _ same

theorem getLast?_eq_quote_iff : text.getLast? = some '"' ↔ text'.getLast? = some '"' := by
  rw [← List.head?_reverse, ← List.head?_reverse]
  have reversed := same.reverse
  generalize text.reverse = last, text'.reverse = last' at reversed
  cases reversed with
  | nil => rfl
  | cons first _ => simp only [List.head?_cons, Option.some.injEq, eq_quote_iff first]

theorem unquote : SameButCase (Text.unquote text) (Text.unquote text') := by
  unfold Text.unquote
  have trimmed := same.trim
  generalize Text.trim text = inner, Text.trim text' = inner' at trimmed
  cases trimmed with
  | nil => exact .nil
  | @cons c d rest rest' first tail =>
      have tail : SameButCase rest rest' := tail
      by_cases quote : c = '"'
      · have quote' : d = '"' := (eq_quote_iff first).mp quote
        subst quote quote'
        simp only [tail.getLast?_eq_quote_iff]
        split
        · exact tail.dropLast.trim
        · exact .cons first tail
      · have noQuote : d ≠ '"' := fun quote' => quote ((eq_quote_iff first).mpr quote')
        split
        · rename_i found
          exact absurd (List.cons.inj found).1 quote
        · split
          · rename_i found
            exact absurd (List.cons.inj found).1 noQuote
          · exact .cons first tail

end SameButCase

end SearchCommands.Text
