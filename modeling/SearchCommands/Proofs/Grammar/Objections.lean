import SearchCommands.Proofs.Filter.Bounds
import SearchCommands.Proofs.Grammar.Values

/-!
# Objections

Everything for which an input can be refused is an objection: it applies or not, and it has a reason
and a text that is left over then.  A list of objections is in the order of priority, and the
failure is that of the first one that applies.  The rules of a grammar are such a list, and so are
the demands on typed bounds: two of them bound from opposite sides, and every number is finite.
-/

namespace SearchCommands

open Number

/-- Something for which an input can be refused. -/
structure Objection where
  /-- Whether it applies to the input. -/
  applies : Bool
  reason : Rejection
  /-- The text that is left over if the input is refused for it. -/
  leftover : String

namespace Objection

/-- How the reading of an input fails that is refused for the objection. -/
def failure (objection : Objection) : Failure := ⟨.rejected objection.reason, objection.leftover⟩

/-- The failure for the first objection that applies. -/
def first? (objections : List Objection) : Option Failure :=
  (objections.find? applies).map failure

theorem first?_append (left right : List Objection) :
    first? (left ++ right) = (first? left).or (first? right) := by
  rw [first?, List.find?_append, Option.map_or]
  rfl

theorem first?_flatMap {ι : Type} (objections : ι → List Objection) (parts : List ι) :
    first? (parts.flatMap objections) = parts.findSome? fun part => first? (objections part) := by
  induction parts with
  | nil => rfl
  | cons part rest ih =>
      rw [List.flatMap_cons, first?_append, ih, List.findSome?_cons]
      cases first? (objections part) <;> rfl

/-- An objection is never the first one that applies if one before it applies whenever it does. -/
theorem first?_drop {before after : List Objection} {objection : Objection}
    (implied : objection.applies = true → ∃ earlier ∈ before, earlier.applies = true) :
    first? (before ++ objection :: after) = first? (before ++ after) := by
  rw [first?_append, first?_append]
  cases applies : objection.applies with
  | false =>
      have passed : first? (objection :: after) = first? after := by
        rw [first?, List.find?_cons_of_neg (by simp [applies])]
        rfl
      rw [passed]
  | true =>
      rcases implied applies with ⟨earlier, member, earlierApplies⟩
      have found : (before.find? Objection.applies).isSome = true :=
        List.find?_isSome.mpr ⟨earlier, member, earlierApplies⟩
      rcases Option.isSome_iff_exists.mp found with ⟨one, oneFound⟩
      rw [first?, oneFound]
      rfl

end Objection

/-- A rule is an objection to the captures for which it does not hold. -/
def Rule.objection (captures : Captures) (leftover : String) (field : Field) (rule : Rule) :
    Objection :=
  ⟨!rule.holds field.name captures, rule.rejection field.name, leftover⟩

/-- The objection that a field is captured more often than allowed. -/
def Objection.tooMany (captures : Captures) (leftover field : String) (limit : Nat) : Objection :=
  ⟨decide (limit < captures.countOf field), .tooMany field limit, leftover⟩

/-- The objection that two fields are captured which exclude each other. -/
def Objection.conflict (captures : Captures) (leftover field other : String) : Objection :=
  ⟨captures.has field && captures.has other, .conflict field other, leftover⟩

theorem Rule.objection_atMost (captures : Captures) (leftover : String) (field : Field)
    (limit : Nat) : Rule.objection captures leftover field (.atMost limit) =
      Objection.tooMany captures leftover field.name limit := by
  rw [objection, holds, rejection, Objection.tooMany, ← decide_not]
  simp only [Nat.not_le]

theorem Rule.objection_excludes (captures : Captures) (leftover : String) (field : Field)
    (other : String) : Rule.objection captures leftover field (.excludes other) =
      Objection.conflict captures leftover field.name other := by
  simp [objection, holds, rejection, Objection.conflict]

/-- The rules of a grammar as objections. -/
def Grammar.ruleObjections (grammar : Grammar) (captures : Captures) (leftover : String) :
    List Objection :=
  grammar.fields.flatMap fun field => field.rules.map (Rule.objection captures leftover field)

/-- A grammar rejects captures for the first of its rules that does not hold. -/
theorem Grammar.first?_ruleObjections (grammar : Grammar) (captures : Captures)
    (leftover : String) :
    Objection.first? (grammar.ruleObjections captures leftover) =
      (grammar.rejection? captures).map fun reason => ⟨.rejected reason, leftover⟩ := by
  have each (field : Field) :
      Objection.first? (field.rules.map (Rule.objection captures leftover field)) =
        (field.rejection? captures).map fun reason => ⟨.rejected reason, leftover⟩ := by
    rw [Objection.first?, List.find?_map, Field.rejection?, Option.map_map, Option.map_map]
    rfl
  rw [ruleObjections, Objection.first?_flatMap, rejection?, List.map_findSome?]
  simp only [each]
  rfl

namespace Filter

/-- Why two bounds cannot be combined if they do not bound from opposite sides. -/
def pairReason (first second : Bound String) : Rejection :=
  if first.operator.isExact || second.operator.isExact then .exactInRange first second
  else if first.operator.boundsAbove then .bothAbove first second
  else .bothBelow first second

instance (first second : Operator) : Decidable (first.Opposes second) :=
  inferInstanceAs (Decidable (_ ∨ _))

theorem operatorFault?_eq (first second : Bound String) :
    operatorFault? first second =
      if first.operator.Opposes second.operator then none else some (pairReason first second) := by
  split
  · rename_i opposes
    exact operatorFault?_eq_none_iff.mpr opposes
  · rename_i together
    rw [← operatorFault?_eq_none_iff] at together
    rcases first with ⟨operator, value⟩
    rcases second with ⟨operator', value'⟩
    revert together
    unfold operatorFault? pairReason
    cases operator <;> cases operator' <;>
      simp [Operator.isExact, Operator.boundsAbove, Operator.boundsBelow]

/-- A typed number is an objection if it is read as none that is finite. -/
def numberObjection (leftover : String) (bound : Bound String) : Objection :=
  ⟨(Binary32.read? bound.value).any fun value => !value.isFinite, .notANumber bound.value, leftover⟩

/-- The objections to typed bounds: that the first two cannot be combined, then each number. -/
def boundObjections (leftover : String) (typed : List (Bound String)) : List Objection :=
  (match typed with
    | first :: second :: _ =>
        [⟨!decide (first.operator.Opposes second.operator), pairReason first second, leftover⟩]
    | _ => []) ++
    typed.map (numberObjection leftover)

/-- The value of a typed bound is a number without blanks around it. -/
def IsNumber (bound : Bound String) : Prop :=
  Text.NoBlank bound.value.toList ∧ ∃ value, Binary32.read? bound.value = some value

theorem IsNumber.readBound_eq {bound : Bound String} (number : IsNumber bound) :
    ∃ read, readBound bound =
      if (Binary32.read? bound.value).any fun value => !value.isFinite then
        .error (.notANumber bound.value)
      else .ok read := by
  rcases number with ⟨inked, value, read⟩
  refine ⟨⟨bound.operator, value⟩, ?_⟩
  simp only [readBound, Text.trim_eq_self_iff.mpr inked.trimmed, String.ofList_toList, read,
    Option.any_some]
  cases value.isFinite <;> rfl

/-- The reason why typed bounds ask for no filter, if they ask for none. -/
def rejection? (typed : List (Bound String)) : Option Rejection :=
  match ofBounds typed with
  | .ok _ => none
  | .error reason => some reason

/-- Typed bounds ask for no filter because of the first objection to them that applies. -/
theorem first?_boundObjections {typed : List (Bound String)} (few : typed.length ≤ 2)
    (numbers : ∀ bound ∈ typed, IsNumber bound) (leftover : String) :
    Objection.first? (boundObjections leftover typed) =
      (rejection? typed).map fun reason => ⟨.rejected reason, leftover⟩ := by
  match typed with
  | [] => rfl
  | [only] =>
      rcases (numbers only (by simp)).readBound_eq with ⟨read, readEq⟩
      simp only [boundObjections, rejection?, ofBounds, ofComparison, readEq, Objection.first?,
        List.nil_append, List.map_cons, List.map_nil, List.find?_cons, numberObjection]
      cases (Binary32.read? only.value).any fun value => !value.isFinite <;> rfl
  | [first, second] =>
      rcases (numbers first (by simp)).readBound_eq with ⟨read, readEq⟩
      rcases (numbers second (by simp)).readBound_eq with ⟨read', readEq'⟩
      simp only [boundObjections, rejection?, ofBounds, ofComparison, operatorFault?_eq, readEq,
        readEq', Objection.first?, List.map_cons, List.map_nil, List.find?_cons, numberObjection,
        List.cons_append, List.nil_append]
      by_cases opposes : first.operator.Opposes second.operator
      · simp only [opposes, if_true, decide_true, Bool.not_true]
        cases (Binary32.read? first.value).any fun value => !value.isFinite <;>
          cases (Binary32.read? second.value).any fun value => !value.isFinite <;> rfl
      · simp only [opposes, if_false, decide_false, Bool.not_false]
        rfl
  | _ :: _ :: _ :: _ =>
      simp only [List.length_cons] at few
      omega

end Filter

/-- The bounds that are captured for a field are numbers. -/
theorem Grammar.isNumber_of_mem_boundsOf {grammar : Grammar} {input : String} {field : Field}
    (member : field ∈ grammar.fields) {signed whole : Bool}
    (kind : field.kind = .number signed whole) :
    ∀ bound ∈ (grammar.captures input).boundsOf field.name, Filter.IsNumber bound := by
  intro bound captured
  rcases Binary32.exists_read? (mem_boundsOf member kind captured).2 with ⟨value, read⟩
  rw [String.ofList_toList] at read
  exact ⟨noBlank_of_mem_boundsOf member kind bound captured, value, read⟩

end SearchCommands
