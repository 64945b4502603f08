import Mathlib.Data.List.Permutation
import SearchCommands.Proofs.Search.Completeness

/-!
# The order of items

Commands with the same items ask for alike searches, whatever blanks separate the items and in
whatever order they are typed.  Alike searches are the same, except that the two bounds of a range
can change places if their values are equal.
-/

namespace SearchCommands

open Number Text FieldPattern Beatmap

/-- The same filters, up to the order of two bounds with equal values. -/
def Filter.Alike (first second : Filter) : Prop :=
  first = second ∨ ∃ range range' : Range, first = .between range ∧ second = .between range' ∧
    range'.lower = range.upper ∧ range'.upper = range.lower ∧
    (range.lower.value == range.upper.value) = true

theorem Filter.Alike.rel_refl (filter : Option Filter) : Option.Rel Filter.Alike filter filter := by
  cases filter with
  | none => exact .none
  | some filter => exact .some (Or.inl rfl)

/-- The same searches, up to the order of two bounds with equal values. -/
structure Search.Alike (first second : Search) : Prop where
  username : first.username = second.username
  exact : first.exact = second.exact
  query : first.query = second.query
  artist : first.artist = second.artist
  title : first.title = second.title
  playcount : Option.Rel Filter.Alike first.playcount second.playcount
  beatmap : Option.Rel (fun criteria criteria' : Beatmap.Criteria => ∀ measure,
    Option.Rel Filter.Alike (criteria.filter? measure) (criteria'.filter? measure))
      first.beatmap second.beatmap

namespace Number.Binary32

/-- Numbers that are at most each other have one value. -/
theorem beq_of_le_of_le {a b : Binary32} (left : a ≤ b) (right : b ≤ a) : (a == b) = true := by
  rcases le_iff.mp left with ⟨rank, rank', rankEq, rankEq', order⟩
  rcases le_iff.mp right with ⟨_, _, same, same', order'⟩
  rw [rankEq'] at same
  rw [rankEq] at same'
  cases same
  cases same'
  change sameValue a b = true
  simp only [sameValue, rankEq, rankEq', beq_iff_eq]
  omega

end Number.Binary32

/-- Two bounds give alike ranges in both orders. -/
theorem Range.of_alike {first second : Bound Binary32} (firstFinite : first.value.isFinite = true)
    (secondFinite : second.value.isFinite = true) :
    Filter.Alike (.between (Range.of first second)) (.between (Range.of second first)) := by
  by_cases forwards : first.value ≤ second.value
  · by_cases backwards : second.value ≤ first.value
    · right
      refine ⟨_, _, rfl, rfl, ?_⟩
      simp only [Range.of, dif_pos forwards, dif_pos backwards]
      exact ⟨trivial, trivial, Binary32.beq_of_le_of_le forwards backwards⟩
    · left
      simp only [Range.of, dif_pos forwards, dif_neg backwards]
  · have backwards : second.value ≤ first.value :=
      Binary32.le_of_not_lt secondFinite firstFinite
        fun less => forwards (Binary32.le_of_lt less)
    left
    simp only [Range.of, dif_neg forwards, dif_pos backwards]

/-- The order of bounds matters as little for the filter that they ask for. -/
theorem Filter.asked_alike {bounds bounds' : List (Bound String)} (combinable : Combinable bounds)
    (same : bounds.Perm bounds') :
    Option.Rel Filter.Alike (Filter.asked bounds) (Filter.asked bounds') := by
  match bounds with
  | [] =>
      rw [List.nil_perm.mp same]
      exact Alike.rel_refl _
  | [only] =>
      rw [List.singleton_perm.mp same]
      exact Alike.rel_refl _
  | [first, second] =>
      rcases List.pair_perm.mp same with rfl | rfl
      · exact Alike.rel_refl _
      · have firstFinite := Bound.isFinite_read (combinable.finite first (by simp))
        have secondFinite := Bound.isFinite_read (combinable.finite second (by simp))
        have alike := Range.of_alike firstFinite secondFinite
        rw [← Range.byValue_eq_of firstFinite secondFinite,
          ← Range.byValue_eq_of secondFinite firstFinite] at alike
        exact .some alike
  | _ :: _ :: _ :: _ =>
      have few := combinable.few
      simp only [List.length_cons] at few
      omega

theorem Combinable.of_perm {bounds bounds' : List (Bound String)} (combinable : Combinable bounds)
    (same : bounds.Perm bounds') : Combinable bounds' where
  few := same.length_eq ▸ combinable.few
  opposed := by
    rintro first second rfl
    rcases List.perm_pair.mp same with rfl | rfl
    · exact combinable.opposed first second rfl
    · exact (combinable.opposed second first rfl).symm
  finite := fun bound member => combinable.finite bound (same.mem_iff.mpr member)

namespace Search.Composition

/-- The same player and the same items. -/
structure SameItems (first second : Composition) : Prop where
  username : first.username.map Prod.snd = second.username.map Prod.snd
  items : first.all.Perm second.all

variable {composition other : Composition}

theorem SameItems.texts (same : composition.SameItems other) (part : Part) :
    (composition.texts part).Perm (other.texts part) :=
  same.items.filterMap _

theorem IsConsistent.of_sameItems (consistent : composition.IsConsistent)
    (same : composition.SameItems other) : other.IsConsistent where
  exact := same.items.countP_eq Item.isExact ▸ consistent.exact
  texts := fun part => (same.texts part).length_eq ▸ consistent.texts part
  exclusive := by
    have nothing {part : Part} (empty : composition.texts part = []) : other.texts part = [] := by
      have perm := same.texts part
      rw [empty] at perm
      exact List.nil_perm.mp perm
    rcases consistent.exclusive with query | ⟨artist, title⟩
    · exact Or.inl (nothing query)
    · exact Or.inr ⟨nothing artist, nothing title⟩
  playcounts := consistent.playcounts.of_perm (same.items.filterMap _)
  bounds := fun measure => (consistent.bounds measure).of_perm (same.items.filterMap _)

/-- At most one text is the same in every order. -/
theorem head?_texts (consistent : composition.IsConsistent) (same : composition.SameItems other)
    (part : Part) : (composition.texts part).head? = (other.texts part).head? := by
  have perm := same.texts part
  match shape : composition.texts part with
  | [] =>
      rw [shape] at perm
      rw [List.nil_perm.mp perm]
  | [only] =>
      rw [shape] at perm
      rw [List.singleton_perm.mp perm]
  | _ :: _ :: _ =>
      have few := consistent.texts part
      rw [shape] at few
      simp only [List.length_cons] at few
      omega

theorem any_eq_of_sameItems (same : composition.SameItems other) (p : Item → Bool) :
    composition.all.any p = other.all.any p := by
  rw [Bool.eq_iff_iff, List.any_eq_true, List.any_eq_true]
  simp only [same.items.mem_iff]

theorem alike_of_sameItems (consistent : composition.IsConsistent)
    (same : composition.SameItems other) : composition.search.Alike other.search where
  username := by
    have content (composition : Composition) : composition.search.username =
        ((composition.username.map Prod.snd).map Operand.content).getD unspecifiedName := by
      simp only [search, Option.map_map]
      rfl
    rw [content, content, same.username]
  exact := any_eq_of_sameItems same Item.isExact
  query := head?_texts consistent same .query
  artist := head?_texts consistent same .artist
  title := head?_texts consistent same .title
  playcount := Filter.asked_alike consistent.playcounts (same.items.filterMap _)
  beatmap := by
    have asked := any_eq_of_sameItems same Item.isCriterion
    simp only [search, asked]
    split
    · refine .some ?_
      intro measure
      exact Filter.asked_alike (consistent.bounds measure) (same.items.filterMap _)
    · exact .none

/-- Every valid and consistent command is read without leftover as the search that it asks for, and
so is every command with the same items, whose search is alike. -/
theorem read_in_any_order (valid : composition.IsValid) (consistent : composition.IsConsistent) :
    read (String.ofList composition.text) = .ok ⟨composition.search, ""⟩ ∧
      ∀ other : Composition, other.IsValid → composition.SameItems other →
        read (String.ofList other.text) = .ok ⟨other.search, ""⟩ ∧
          composition.search.Alike other.search := by
  refine ⟨read_text valid consistent, ?_⟩
  intro other otherValid same
  exact ⟨read_text otherValid (consistent.of_sameItems same), alike_of_sameItems consistent same⟩

/-- A command with the name of the player between its items. -/
def mixedCommand : Composition where
  leading := [([], .criterion .approachRate ['A', 'R'] .greater ['9'])]
  username := some ([' '], .bare ['m', 'r', 'e', 'k', 'k'])
  items :=
    [([' '], .exact ['-', 'e']),
      ([' '], .text .title ['-', 't'] ['\t'] (.quoted [' ', 'a', 'r', '<', '1', ' ', '-', 'q'])),
      ([' ', '\n'], .playcount ['p', 'c'] .greaterOrEqual ['-', '1', '0']),
      ([' '], .criterion .approachRate ['a', 'r'] .lessOrEqual ['.', '5'])]
  trailing := [' ']

/-- The items of the mixed command in another order. -/
def reorderedCommand : Composition where
  leading := []
  username := some ([], .bare ['m', 'r', 'e', 'k', 'k'])
  items :=
    [([' '], .criterion .approachRate ['a', 'r'] .lessOrEqual ['.', '5']),
      ([' '], .playcount ['p', 'c'] .greaterOrEqual ['-', '1', '0']),
      ([' '], .text .title ['-', 't'] ['\t'] (.quoted [' ', 'a', 'r', '<', '1', ' ', '-', 'q'])),
      ([' '], .exact ['-', 'e']),
      ([' '], .criterion .approachRate ['A', 'R'] .greater ['9'])]
  trailing := []

theorem mixedCommand_valid : ∀ item ∈ mixedCommand.all, item.IsValid := by
  have digits (text : List Char) (some : text ≠ []) (all : ∀ c ∈ text, c.isDigit = true) :
      Digits text := ⟨some, all⟩
  intro item member
  simp only [all, mixedCommand, List.cons_append, List.nil_append, List.map_cons, List.map_nil,
    List.mem_cons, List.not_mem_nil, or_false] at member
  rcases member with rfl | rfl | rfl | rfl | rfl
  · exact ⟨⟨"ar", by decide, by decide +kernel⟩, by decide, Or.inl (digits _ (by decide) (by decide))⟩
  · exact ⟨"-e", by decide, by decide +kernel⟩
  · exact ⟨by decide, ⟨"-t", by decide, by decide +kernel⟩, by decide, by unfold AllBlank; decide,
      (by decide : '"' ∉ [' ', 'a', 'r', '<', '1', ' ', '-', 'q'])⟩
  · exact ⟨⟨"pc", by decide, by decide +kernel⟩, by decide,
      Or.inr ⟨rfl, ['1', '0'], rfl, Or.inl (digits _ (by decide) (by decide))⟩⟩
  · exact ⟨⟨"ar", by decide, by decide +kernel⟩, by decide,
      Or.inr ⟨rfl, [], ['5'], rfl, Or.inl rfl, digits _ (by decide) (by decide)⟩⟩

theorem mrekk_valid :
    (Operand.bare ['m', 'r', 'e', 'k', 'k']).IsValid ∧ ¬ IsPlaycount ['m', 'r', 'e', 'k', 'k'] := by
  have plain : ∀ c ∈ ['m', 'r', 'e', 'k', 'k'], isOperatorCharacter c = false := by decide
  refine ⟨⟨⟨by decide, by unfold NoBlank; decide, by decide, by decide⟩, ?_⟩, ?_⟩
  · exact not_isCriterion_of_noOperator plain
  · exact not_isNumberWord_of_noOperator plain

theorem mixedCommand_isValid : mixedCommand.IsValid where
  leading := by
    intro item member
    refine ⟨mixedCommand_valid item.2 (List.mem_map_of_mem (List.mem_append_left _ member)), ?_⟩
    rw [List.mem_singleton.mp member]
    rfl
  username := by
    intro value member
    rcases Option.some.inj member with rfl
    exact mrekk_valid
  items := fun item member =>
    mixedCommand_valid item.2 (List.mem_map_of_mem (List.mem_append_right _ member))
  blank := by unfold AllBlank; decide
  separated := by decide
  trailing := by unfold AllBlank; decide

theorem sameItems_reorderedCommand : mixedCommand.SameItems reorderedCommand where
  username := rfl
  items := (List.reverse_perm mixedCommand.all).symm

theorem reorderedCommand_isValid : reorderedCommand.IsValid where
  leading := fun item member => absurd member List.not_mem_nil
  username := by
    intro value member
    rcases Option.some.inj member with rfl
    exact mrekk_valid
  items := fun item member => mixedCommand_valid item.2
    (sameItems_reorderedCommand.items.mem_iff.mpr (List.mem_map_of_mem member))
  blank := by unfold AllBlank; decide
  separated := by decide
  trailing := by unfold AllBlank; decide

theorem mixedCommand_isConsistent : mixedCommand.IsConsistent := by
  have finite {bounds : List (Bound String)} (reads : (bounds.all fun bound =>
      (Binary32.read? bound.value).any Binary32.isFinite) = true) : ∀ bound ∈ bounds,
      ∃ value, Binary32.read? bound.value = some value ∧ value.isFinite = true := by
    intro bound member
    exact (Option.any_eq_true _ _).mp (List.all_eq_true.mp reads bound member)
  refine ⟨by decide, ?_, Or.inl rfl, ?_, ?_⟩
  · intro part
    cases part <;> decide
  · refine ⟨by decide, ?_, finite (by decide +kernel)⟩
    intro first second impossible
    cases impossible
  · intro measure
    cases measure with
    | approachRate =>
        refine ⟨by decide, ?_, finite (by decide +kernel)⟩
        intro first second same
        cases same
        exact Or.inr ⟨rfl, rfl⟩
    | circleSize | bpm | length | drain | overallDifficulty | starRating => exact .nil

/-- A mixed command and one with its items in another order ask for alike searches. -/
theorem read_mixedCommand :
    read "AR>9 mrekk -e -t\t\" ar<1 -q\" \npc>=-10 ar<=.5 " = .ok ⟨mixedCommand.search, ""⟩ ∧
      read "mrekk ar<=.5 pc>=-10 -t\t\" ar<1 -q\" -e AR>9" = .ok ⟨reorderedCommand.search, ""⟩ ∧
      mixedCommand.search.Alike reorderedCommand.search := by
  have result := read_in_any_order mixedCommand_isValid mixedCommand_isConsistent
  exact ⟨result.1, result.2 reorderedCommand reorderedCommand_isValid sameItems_reorderedCommand⟩

end Search.Composition

end SearchCommands
