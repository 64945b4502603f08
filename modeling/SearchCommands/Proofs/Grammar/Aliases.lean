import SearchCommands.Proofs.Grammar.Layout
import SearchCommands.Proofs.Grammar.Preference
import SearchCommands.Proofs.Grammar.Spans

/-!
# Aliases that can be matched

An alias that ends in a letter or a number is followed by the edge of a word, so its last character
has to be one of a word.  With that, every alias can be matched: an input that uses it in the
plainest way is one occurrence of its field (`Grammar.captures_of_alias`).  Without it, an alias is
accepted and never matched, since `²` and `½` are numbers but no characters of words
(`Grammar.not_captured_of_lone_numbers`).
-/

namespace SearchCommands

open Text FieldPattern

namespace Field

variable {field : Field}

/-- The plainest uses of an alias: alone, with an operator and a number, or before a bare word. -/
inductive Uses (field : Field) (name : String) : List Char → Prop where
  | flag (kind : field.kind = .flag) : Uses field name name.toList
  | number {signed whole : Bool} {operator : Operator} {digits : List Char}
      (kind : field.kind = .number signed whole) (given : operator ≠ .absent)
      (inside : NumberText signed whole digits) :
      Uses field name (name.toList ++ (operator.symbol.toList ++ digits))
  | text {quotable : Bool} {word : List Char} (kind : field.kind = .text quotable)
      (bare : BareWord word) : Uses field name (name.toList ++ ' ' :: word)

theorem introduces_of_mem {name : String} (declared : name ∈ field.aliases)
    (wordEnds : endsInWord name = true → name.toList.getLast?.any isWordCharacter = true) :
    field.Introduces name.toList :=
  ⟨name, declared, SpelledAs.refl _, wordEnds⟩

theorem Uses.exists_spells {name : String} {text : List Char} (uses : field.Uses name text)
    (introduced : field.Introduces name.toList) : ∃ value, field.Spells text value := by
  cases uses with
  | flag kind => exact ⟨_, .flag kind introduced⟩
  | number kind given inside => exact ⟨_, .number kind introduced given inside⟩
  | @text quotable word kind bare =>
      have aliased : field.isPositional = false := by
        rcases introduced with ⟨name, member, _⟩
        simpa [isPositional] using List.ne_nil_of_mem member
      have blank : AllBlank [' '] := by simp [AllBlank, isBlank]
      exact ⟨_, .text kind aliased introduced (List.cons_ne_nil _ _) blank (Or.inr bare)⟩

theorem Spells.exists_introduces (aliased : field.isPositional = false) {word : List Char}
    {value : FieldValue} (spells : field.Spells word value) :
    ∃ found, field.Introduces found := by
  cases spells with
  | flag _ introduced => exact ⟨_, introduced⟩
  | text _ _ introduced => exact ⟨_, introduced⟩
  | positional _ positional => rw [positional] at aliased; cases aliased
  | number _ introduced => exact ⟨_, introduced⟩

/-- A name that ends in a number of one spelling that is no character of a word. -/
def endsInLoneNumber (name : String) : Bool :=
  name.toList.getLast?.any fun c => isAlphanumeric c && isCaseless c && !isWordCharacter c

theorem not_introduces_of_lone_numbers
    (lone : ∀ name ∈ field.aliases, endsInLoneNumber name = true) (found : List Char) :
    ¬ field.Introduces found := by
  rintro ⟨name, member, spelled, wordEnds⟩
  have lone := lone name member
  rw [endsInLoneNumber, Option.any_eq_true] at lone
  rcases lone with ⟨c, last, lone⟩
  simp only [Bool.and_eq_true, Bool.not_eq_true'] at lone
  have ends : endsInWord name = true := by
    rw [endsInWord, last, Option.any_some, lone.1.1, Bool.true_or]
  rcases spelled.getLast? last with ⟨d, foundLast, same⟩
  have wordCharacter := wordEnds ends
  rw [foundLast, Option.any_some, eq_of_sameLetter_caseless lone.1.2 same, lone.2] at wordCharacter
  cases wordCharacter

end Field

namespace Grammar

variable {grammar : Grammar}

/-- A token that covers the whole input is the only one, and nothing is left over. -/
theorem captures_of_whole {input : String} {token : Token}
    (found : grammar.tokenAt? (Cursor.ofText input.toList) = some token)
    (whole : token.stop = ⟨input.toList.reverse, []⟩) :
    grammar.captures input = [⟨token.field, 0, byteLength input.toList, token.value⟩] ∧
      grammar.leftover input = "" := by
  have outside : (Cursor.ofText input.toList).insideQuotes = false :=
    Cursor.insideQuotes_of_even rfl _
  have scans : grammar.Scans (Cursor.ofText input.toList) [token] :=
    .take found outside (whole ▸ .done _)
  rcases tokenAt?_eq_some found with ⟨_, _, _, start, _⟩
  constructor
  · rw [captures, tokens_eq_iff.mpr scans, List.map_singleton, Token.capture, start, whole,
      Cursor.offset, Cursor.offset, byteLength_reverse]
    rfl
  · rw [leftover_of_scans scans, Token.uncovered, Token.uncovered, start, whole,
      textTo_self]
    rfl

/-- Every alias can be matched, unless it ends in a letter or a number that is no character of a
word: where no other field matches, the plainest use of an alias is one occurrence of its field. -/
theorem captures_of_alias {field : Field} (member : field ∈ grammar.fields) {name : String}
    (declared : name ∈ field.aliases)
    (wordEnds : Field.endsInWord name = true → name.toList.getLast?.any isWordCharacter = true)
    {input : String} (uses : field.Uses name input.toList)
    (alone : ∀ other ∈ grammar.fields, other ≠ field →
      other.pattern.match? (Cursor.ofText input.toList) = none) :
    ∃ value, field.Spells input.toList value ∧
      grammar.captures input = [⟨field.name, 0, byteLength input.toList, value⟩] ∧
      grammar.leftover input = "" := by
  have proper := isProper member
  rcases uses.exists_spells (Field.introduces_of_mem declared wordEnds) with ⟨_, spells⟩
  have occurs : field.OccursAt (Cursor.ofText input.toList) ⟨input.toList.reverse, []⟩ _ :=
    ⟨[], input.toList, [], by simp [Cursor.ofText], AllBlank.nil, spells, EndsWord.nil,
      Or.inl rfl, by simp [Cursor.ofText]⟩
  have othersNone : ∀ other ∈ grammar.fields, other ≠ field →
      other.tokenAt? (Cursor.ofText input.toList) = none := by
    intro other inside different
    rw [Field.tokenAt?, alone other inside different, Option.bind_none]
  cases found : field.tokenAt? (Cursor.ofText input.toList) with
  | none => exact absurd occurs ((Field.tokenAt?_eq_none_iff proper).mp found _ _)
  | some token =>
      rcases Field.tokenAt?_eq_some proper found with ⟨tokenField, _, occurs'⟩
      have whole := occurs'.stop_unique proper occurs
      rw [← tokenAt?_of_alone member othersNone] at found
      rcases captures_of_whole found whole with ⟨captured, nothingLeft⟩
      rw [tokenField] at captured
      refine ⟨token.value, ?_, captured, nothingLeft⟩
      rw [whole] at occurs'
      have behindNothing : field.OccursAt ⟨[], [] ++ input.toList⟩ ⟨input.toList.reverse, []⟩
          token.value := occurs'
      rcases behindNothing.after_blanks proper .nil (spells.startsInked proper) with
        ⟨word, rest, split, spells', _, _, stop⟩
      rw [Cursor.mk.injEq] at stop
      rwa [split, ← stop.2, List.append_nil]

/-- A declaration of a flag and a number, with aliases in any script. -/
def ranked : Grammar :=
  ⟨[⟨"ranked", .flag, ["ランク中"], []⟩, ⟨"stars", .number false false, ["★", "звёзд"], []⟩],
    by decide +kernel⟩

theorem captures_ranked :
    ∃ value, ranked.captures "ランク中" = [⟨"ranked", 0, 12, value⟩] ∧
      ranked.leftover "ランク中" = "" := by
  have alone : ∀ other ∈ ranked.fields, other ≠ ⟨"ranked", .flag, ["ランク中"], []⟩ →
      other.pattern.match? (Cursor.ofText "ランク中".toList) = none := by
    intro other member different
    simp only [ranked, List.mem_cons, List.not_mem_nil, or_false] at member
    rcases member with rfl | rfl
    · exact absurd rfl different
    · exact Option.isNone_iff_eq_none.mp (by decide +kernel)
  rcases captures_of_alias (List.mem_cons_self ..) (List.mem_singleton_self "ランク中")
    (fun _ => by decide +kernel) (.flag rfl) alone with ⟨value, _, captured, nothingLeft⟩
  exact ⟨value, captured, nothingLeft⟩

/-- A declaration of a flag whose alias ends in a number, but in no character of a word. -/
def halved : Grammar := ⟨[⟨"half", .flag, ["½"], []⟩], by decide +kernel⟩

theorem captures_halved :
    ∃ field ∈ halved.fields, ∃ name ∈ field.aliases, field.Uses name "½".toList ∧
      (∀ other ∈ halved.fields, other ≠ field →
        other.pattern.match? (Cursor.ofText "½".toList) = none) ∧
      halved.captures "½" = [] ∧ halved.leftover "½" = "½" := by
  refine ⟨_, List.mem_singleton_self _, "½", List.mem_singleton_self _, .flag rfl, ?_, ?_, ?_⟩
  · intro other member different
    exact absurd (List.mem_singleton.mp member) different
  · decide +kernel
  · decide +kernel

/-- A field is never captured if all its aliases end in such a number. -/
theorem not_captured_of_lone_numbers {field : Field} (member : field ∈ grammar.fields)
    (aliased : field.isPositional = false)
    (lone : ∀ name ∈ field.aliases, Field.endsInLoneNumber name = true) (input : String) :
    (grammar.captures input).has field.name = false := by
  rw [Captures.has, List.any_eq_false]
  intro capture captured same
  rcases exists_token_of_mem_captures captured with
    ⟨_, _, _, ⟨other, otherMember, name, _, _, _, _, _, spells, _⟩, _⟩
  have own : other = field :=
    field_eq_of_name otherMember member (by rw [← name, beq_iff_eq.mp same])
  subst own
  rcases spells.exists_introduces aliased with ⟨found, introduced⟩
  exact Field.not_introduces_of_lone_numbers lone found introduced

end Grammar

end SearchCommands
