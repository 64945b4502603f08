import SearchCommands.Proofs.Grammar.Coverage
import SearchCommands.Proofs.Search.Verdict

/-!
# The capture at the start of the input

A grammar can have several fields without aliases, and all of them read the start of the input.  At
most one of them is captured, whatever the others read: the first declared one that matches there,
and only if no field with aliases does (`Grammar.has_iff_of_declared`).  So a rule that allows such
a field once always holds, and no search is refused because it names too many players.
-/

namespace SearchCommands

open Text

namespace Field

/-- The match at the start of a text does not depend on where the text is split. -/
theorem matchesAt_zero_iff {field : Field} {text : List Char} :
    field.MatchesAt text 0 ↔ field.pattern.match? (Cursor.ofText text) ≠ none := by
  constructor
  · rintro ⟨left, right, rfl, empty, here⟩
    have nothing : left = [] := by
      by_contra some
      have length := byteLength_pos some
      omega
    subst nothing
    exact here
  · intro here
    exact ⟨[], text, rfl, rfl, here⟩

end Field

namespace Grammar

variable {grammar : Grammar} {field : Field} {input : String}

/-- Whether the capture is one of a field without aliases. -/
def isPositional (grammar : Grammar) (capture : Capture) : Bool :=
  grammar.fields.any fun field => field.isPositional && field.name == capture.field

theorem isPositional_iff {capture : Capture} :
    grammar.isPositional capture = true ↔
      ∃ field ∈ grammar.fields, field.isPositional = true ∧ capture.field = field.name := by
  simp only [isPositional, List.any_eq_true, Bool.and_eq_true, beq_iff_eq]
  simp only [eq_comm (a := capture.field)]

theorem start_eq_zero_of_isPositional_capture {capture : Capture}
    (captured : capture ∈ grammar.captures input)
    (positional : grammar.isPositional capture = true) : capture.start = 0 := by
  rcases isPositional_iff.mp positional with ⟨field, member, isPositional, own⟩
  exact start_eq_zero_of_isPositional member isPositional captured own

/-- No field with aliases matches at the start of a text. -/
def StartsUnaliased (grammar : Grammar) (text : List Char) : Prop :=
  ∀ field ∈ grammar.fields, field.isPositional = false → ¬ field.MatchesAt text 0

theorem startsUnaliased_iff {text : List Char} :
    grammar.StartsUnaliased text ↔ ∀ field ∈ grammar.fields, field.isPositional = false →
      field.pattern.match? (Cursor.ofText text) = none := by
  simp only [StartsUnaliased, Field.matchesAt_zero_iff, not_not]

/-- The field of a token among some declared fields is the one that has the token. -/
theorem findSome?_eq_some_iff_of_declared {earlier later : List Field}
    (split : grammar.fields = earlier ++ field :: later) (positional : field.isPositional = true)
    {cursor : Cursor} {token : Token} (own : token.field = field.name) :
    (grammar.fields.filter Field.isPositional).findSome? (fun other => other.tokenAt? cursor) =
        some token ↔
      (∀ other ∈ earlier, other.isPositional = true → other.pattern.match? cursor = none) ∧
        field.tokenAt? cursor = some token := by
  have member : field ∈ grammar.fields := by simp [split]
  have distinct := grammar.names_nodup
  rw [split, List.map_append, List.map_cons, List.nodup_append, List.nodup_cons] at distinct
  have inside {other : Field} (listed : other ∈ earlier ∨ other ∈ later) :
      other ∈ grammar.fields := by
    rcases listed with listed | listed <;> simp [split, listed]
  have nothing : (earlier.filter Field.isPositional).findSome? (fun other =>
        other.tokenAt? cursor) = none ↔
      ∀ other ∈ earlier, other.isPositional = true → other.pattern.match? cursor = none := by
    simp only [List.findSome?_eq_none_iff, List.mem_filter, and_imp]
    apply forall₂_congr
    intro other listed
    rw [Field.match?_eq_none_iff (isProper (inside (Or.inl listed)))]
  -- no other field has a token of this name
  have foreign {fields : List Field} (among : ∀ other ∈ fields, other ∈ grammar.fields)
      (absent : field.name ∉ fields.map Field.name) :
      (fields.filter Field.isPositional).findSome? (fun other => other.tokenAt? cursor) ≠
        some token := by
    intro found
    rcases List.exists_of_findSome?_eq_some found with ⟨other, listed, found⟩
    have otherListed := (List.mem_filter.mp listed).1
    rcases Field.tokenAt?_eq_some (isProper (among other otherListed)) found with ⟨name, _, _⟩
    exact absent (List.mem_map.mpr ⟨other, otherListed, name.symm.trans own⟩)
  have notEarlier := foreign (fun other listed => inside (Or.inl listed)) fun listed =>
    distinct.2.2 field.name listed field.name List.mem_cons_self rfl
  have notLater := foreign (fun other listed => inside (Or.inr listed)) distinct.2.1.1
  rw [split, List.filter_append, List.filter_cons_of_pos positional, List.findSome?_append,
    Option.or_eq_some_iff, nothing, List.findSome?_cons]
  simp only [notEarlier, false_or]
  cases found : field.tokenAt? cursor with
  | some other => simp
  | none => simp [notLater]

/-- A field without aliases is captured exactly if it is the first one declared that matches at the
start of the input, and no field with aliases matches there. -/
theorem has_iff_of_declared {earlier later : List Field}
    (split : grammar.fields = earlier ++ field :: later) (positional : field.isPositional = true)
    (input : String) :
    (grammar.captures input).has field.name = true ↔
      grammar.StartsUnaliased input.toList ∧ field.MatchesAt input.toList 0 ∧
        ∀ other ∈ earlier, other.isPositional = true → ¬ other.MatchesAt input.toList 0 := by
  have member : field ∈ grammar.fields := by simp [split]
  simp only [has_iff_of_positional member positional, startsUnaliased_iff,
    Field.matchesAt_zero_iff, not_not]
  constructor
  · rintro ⟨token, own, found⟩
    rcases (tokenAt?_eq_some_iff_of_positional member positional own).mp found with
      ⟨unaliased, first⟩
    rcases (findSome?_eq_some_iff_of_declared split positional own).mp first with ⟨noEarlier, here⟩
    refine ⟨unaliased, ?_, noEarlier⟩
    rw [Ne, Field.match?_eq_none_iff (isProper member), here]
    exact Option.some_ne_none token
  · rintro ⟨unaliased, here, noEarlier⟩
    rw [Ne, Field.match?_eq_none_iff (isProper member)] at here
    rcases Option.ne_none_iff_exists'.mp here with ⟨token, found⟩
    have own := (Field.tokenAt?_eq_some (isProper member) found).1
    have first := (findSome?_eq_some_iff_of_declared split positional own).mpr ⟨noEarlier, found⟩
    exact ⟨token, own,
      (tokenAt?_eq_some_iff_of_positional member positional own).mpr ⟨unaliased, first⟩⟩

/-- Some field without aliases is captured exactly if one of them matches at the start of the input
and no field with aliases does. -/
theorem exists_isPositional_iff (grammar : Grammar) (input : String) :
    (∃ capture ∈ grammar.captures input, grammar.isPositional capture = true) ↔
      grammar.StartsUnaliased input.toList ∧
        ∃ field ∈ grammar.fields, field.isPositional = true ∧ field.MatchesAt input.toList 0 := by
  constructor
  · rintro ⟨capture, captured, positional⟩
    rcases isPositional_iff.mp positional with ⟨field, member, isPositional, own⟩
    rcases List.append_of_mem member with ⟨earlier, later, split⟩
    have has : (grammar.captures input).has field.name = true :=
      List.any_eq_true.mpr ⟨capture, captured, by simp [own]⟩
    rcases (has_iff_of_declared split isPositional input).mp has with ⟨unaliased, here, _⟩
    exact ⟨unaliased, field, member, isPositional, here⟩
  · rintro ⟨unaliased, field, member, positional, here⟩
    have some : (grammar.fields.filter Field.isPositional).findSome? (fun other =>
        other.tokenAt? (Cursor.ofText input.toList)) ≠ none := by
      intro nothing
      have noToken := List.findSome?_eq_none_iff.mp nothing field
        (List.mem_filter.mpr ⟨member, positional⟩)
      rw [← Field.match?_eq_none_iff (isProper member)] at noToken
      exact Field.matchesAt_zero_iff.mp here noToken
    rcases Option.ne_none_iff_exists'.mp some with ⟨token, first⟩
    rcases List.exists_of_findSome?_eq_some first with ⟨other, listed, found⟩
    rcases List.mem_filter.mp listed with ⟨otherMember, otherPositional⟩
    have own := (Field.tokenAt?_eq_some (isProper otherMember) found).1
    have atStart := (tokenAt?_eq_some_iff_of_positional otherMember otherPositional own).mpr
      ⟨startsUnaliased_iff.mp unaliased, first⟩
    have inside := (mem_tokens_iff_of_positional otherMember otherPositional own).mpr atStart
    exact ⟨token.capture, List.mem_map_of_mem inside,
      isPositional_iff.mpr ⟨other, otherMember, otherPositional, own⟩⟩

/-- The reason for which captures are rejected is that of a declared rule that does not hold. -/
theorem exists_rule_of_rejection? {captures : Captures} {reason : Rejection}
    (rejected : grammar.rejection? captures = some reason) :
    ∃ field ∈ grammar.fields, ∃ rule ∈ field.rules, rule.holds field.name captures = false ∧
      rule.rejection field.name = reason := by
  rcases List.exists_of_findSome?_eq_some rejected with ⟨field, member, found⟩
  rcases Option.map_eq_some_iff.mp found with ⟨rule, first, same⟩
  refine ⟨field, member, rule, List.mem_of_find?_eq_some first, ?_, same⟩
  simpa using List.find?_some first

/-- Captures are rejected for an excess of a field only if there are too many of it. -/
theorem countOf_gt_of_tooMany {captures : Captures} {name : String} {limit : Nat}
    (rejected : grammar.rejection? captures = some (.tooMany name limit)) :
    limit < captures.countOf name := by
  rcases exists_rule_of_rejection? rejected with ⟨field, _, rule, _, fails, same⟩
  cases rule with
  | atMost bound =>
      rcases Rejection.tooMany.inj same with ⟨rfl, rfl⟩
      simpa [Rule.holds] using fails
  | excludes other => cases same
  | custom holds message references => cases same

/-- No input is refused because a field without aliases occurs more than once. -/
theorem error_ne_tooMany_of_isPositional (member : field ∈ grammar.fields)
    (positional : field.isPositional = true) {failure : Failure}
    (refused : grammar.read input = .error failure) :
    failure.error ≠ .rejected (.tooMany field.name 1) := by
  rcases read_eq_error_iff.mp refused with ⟨reason, rejected, rfl⟩
  intro isExcess
  rw [CommandError.rejected.inj isExcess] at rejected
  have twice := countOf_gt_of_tooMany rejected
  have once := countOf_le_one_of_isPositional member positional input
  omega

end Grammar

namespace Search

/-- Bounds are objected to for themselves, whatever field they are for. -/
theorem reason_ne_tooMany_of_boundObjections {leftover : String} {typed : List (Bound String)}
    {objection : Objection} (member : objection ∈ Filter.boundObjections leftover typed)
    (name : String) (limit : Nat) : objection.reason ≠ .tooMany name limit := by
  have ofPair (first second : Bound String) :
      Filter.pairReason first second ≠ .tooMany name limit := by
    unfold Filter.pairReason
    split
    · exact Rejection.noConfusion
    · split <;> exact Rejection.noConfusion
  rcases List.mem_append.mp member with pair | number
  · split at pair
    · rw [List.mem_singleton.mp pair]
      exact ofPair _ _
    · cases pair
  · rcases List.mem_map.mp number with ⟨bound, _, rfl⟩
    exact Rejection.noConfusion

/-- No search is objected to because it names too many players. -/
theorem reason_ne_tooMany_username {input : String} {objection : Objection}
    (member : objection ∈ objections input) (limit : Nat) :
    objection.reason ≠ .tooMany "username" limit := by
  rcases List.mem_append.mp member with criteria | own
  · rcases List.mem_append.mp criteria with excess | bounds
    · rcases List.mem_map.mp excess with ⟨measure, _, rfl⟩
      cases measure <;> simp [Objection.tooMany, Beatmap.Measure.field]
    · rcases List.mem_flatMap.mp bounds with ⟨_, _, bound⟩
      exact reason_ne_tooMany_of_boundObjections bound "username" limit
  · rcases List.mem_append.mp own with rules | bounds
    · simp only [List.mem_cons, List.not_mem_nil, or_false] at rules
      rcases rules with rfl | rfl | rfl | rfl | rfl | rfl | rfl <;>
        simp [Objection.tooMany, Objection.conflict]
    · exact reason_ne_tooMany_of_boundObjections bounds "username" limit

/-- No search is refused because it names too many players. -/
theorem error_ne_tooMany_username {input : String} {failure : Failure}
    (refused : read input = .error failure) :
    failure.error ≠ .rejected (.tooMany "username" 1) := by
  rcases exists_read_eq input with ⟨search, verdict⟩
  rw [refused, Objection.first?] at verdict
  cases found : (objections input).find? Objection.applies with
  | some objection =>
      rw [found, Option.map_some, Except.error.injEq] at verdict
      subst verdict
      intro isExcess
      exact reason_ne_tooMany_username (List.mem_of_find?_eq_some found) 1
        (CommandError.rejected.inj isExcess)
  | none =>
      rw [found] at verdict
      cases verdict

end Search

namespace Grammar

/-- At most one capture of an input is one of a field without aliases.  It is the first capture and
starts the input.  There is one exactly if no field with aliases matches at the start of the input
and some field without aliases does, and then it is one of the first declared of these fields.  So a
rule that allows such a field once always holds, and no search is refused because it names too many
players. -/
theorem captures_positional (grammar : Grammar) (input : String) :
    let captures := grammar.captures input
    captures.countP grammar.isPositional ≤ 1 ∧
      (∀ capture ∈ captures, grammar.isPositional capture = true →
        captures.head? = some capture ∧ capture.start = 0) ∧
      ((∃ capture ∈ captures, grammar.isPositional capture = true) ↔
        grammar.StartsUnaliased input.toList ∧
          ∃ field ∈ grammar.fields, field.isPositional = true ∧ field.MatchesAt input.toList 0) ∧
      (∀ earlier field later, grammar.fields = earlier ++ field :: later →
        field.isPositional = true →
        (captures.has field.name = true ↔
          grammar.StartsUnaliased input.toList ∧ field.MatchesAt input.toList 0 ∧
            ∀ other ∈ earlier, other.isPositional = true → ¬ other.MatchesAt input.toList 0)) ∧
      (∀ field ∈ grammar.fields, field.isPositional = true →
        (Rule.atMost 1).holds field.name captures = true ∧
          ∀ failure, grammar.read input = .error failure →
            failure.error ≠ .rejected (.tooMany field.name 1)) ∧
      ∀ failure, Search.read input = .error failure →
        failure.error ≠ .rejected (.tooMany "username" 1) := by
  intro captures
  refine ⟨countP_le_one fun _ => start_eq_zero_of_isPositional_capture, ?_,
    grammar.exists_isPositional_iff input, ?_, ?_, fun _ => Search.error_ne_tooMany_username⟩
  · intro capture captured positional
    have first := start_eq_zero_of_isPositional_capture captured positional
    rcases exists_captures_eq_cons captured first with ⟨later, split, _⟩
    refine ⟨?_, first⟩
    rw [show captures = capture :: later from split, List.head?_cons]
  · intro earlier field later split positional
    exact has_iff_of_declared split positional input
  · intro field member positional
    have once := countOf_le_one_of_isPositional member positional input
    exact ⟨decide_eq_true once, fun _ => error_ne_tooMany_of_isPositional member positional⟩

/-- In `mrekk -e mrekk` the first word is the player, and the one behind the flag is left over. -/
theorem captures_positional_mrekk :
    let input := "mrekk -e mrekk"
    let player : Capture := ⟨"username", 0, 5, .text "mrekk"⟩
    player ∈ Search.grammar.captures input ∧ Search.grammar.isPositional player = true ∧
      (Search.grammar.captures input).head? = some player ∧
      Search.grammar.StartsUnaliased input.toList ∧
      Search.Part.username.declaration.MatchesAt input.toList 0 := by
  intro input player
  rcases captures_positional Search.grammar input with ⟨_, atStart, _, earliest, _⟩
  have captured : player ∈ Search.grammar.captures input := by decide +kernel
  have positional : Search.grammar.isPositional player = true := by decide
  rcases (earliest [] _ _ rfl rfl).mp
    (List.any_eq_true.mpr ⟨player, captured, rfl⟩) with ⟨unaliased, here, _⟩
  exact ⟨captured, positional, (atStart player captured positional).1, unaliased, here⟩

end Grammar

end SearchCommands
