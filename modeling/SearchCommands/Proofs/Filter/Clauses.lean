import Mathlib.Data.List.DropRight
import SearchCommands.Proofs.Field.Words
import SearchCommands.Proofs.Filter.Bounds

/-!
# What clauses say

A clause of a query is a text, and it says what it demands of the columns of a row.  The name of a
relation can be any text, so a clause is read from its end: the last word is a number, the one
before it the symbol of an operator, and what follows the last point before that is the name of a
column, which tells the relation that has to stand there.  A filter with given operators and finite
numbers says in its clause what its bounds are.
-/

namespace SearchCommands

open Text FieldPattern Number

/-- The text before the last mark and the text behind it, if there is a mark. -/
def Text.splitLast? (mark : Char) (text : List Char) : Option (List Char × List Char) :=
  match text.rdropWhile (· != mark) with
  | [] => none
  | kept => some (kept.dropLast, text.rtakeWhile (· != mark))

theorem Text.splitLast?_append {mark : Char} (before : List Char) {word : List Char}
    (plain : mark ∉ word) : splitLast? mark (before ++ mark :: word) = some (before, word) := by
  have passed : ∀ c ∈ word.reverse, (c != mark) = true := by
    intro c member
    rw [bne_iff_ne]
    rintro rfl
    exact plain (List.mem_reverse.mp member)
  have reversed : (before ++ mark :: word).reverse = word.reverse ++ mark :: before.reverse := by
    simp
  have kept : (before ++ mark :: word).rdropWhile (· != mark) = before.concat mark := by
    rw [List.rdropWhile, reversed, List.dropWhile_append_of_pos passed]
    simp
  have last : (before ++ mark :: word).rtakeWhile (· != mark) = word := by
    rw [List.rtakeWhile, reversed, List.takeWhile_append_of_pos passed]
    simp
  unfold splitLast?
  rw [kept, last]
  split
  · rename_i empty
    simp at empty
  · simp

/-- A comparison of a column with a number; without the number if it could not be read. -/
structure Demand where
  relation : String
  column : String
  operator : Operator
  value : Option Binary32
  deriving DecidableEq

/-- What a condition demands. -/
def Condition.demand (condition : Condition) : Demand :=
  ⟨condition.relation, condition.column, condition.bound.operator, some condition.bound.value⟩

namespace Demand

/-- The row has a number in the column that compares with the demanded one as the operator says. -/
def Holds {ν : Type} (compares : Operator → ν → Binary32 → Prop) (row : String → String → ν)
    (demand : Demand) : Prop :=
  ∃ value, demand.value = some value ∧
    compares demand.operator (row demand.relation demand.column) value

/-- What the last condition of a clause demands, and the text before that condition. -/
def last? (relationOf : String → String) (clause : List Char) :
    Option (List Char × Demand) := do
  let (rest, number) ← splitLast? ' ' clause
  let (rest, symbol) ← splitLast? ' ' rest
  let (rest, column) ← splitLast? '.' rest
  let relation := relationOf (String.ofList column)
  let before ← rest.dropSuffix? relation.toList
  return (before, ⟨relation, String.ofList column, Operator.ofSymbol (String.ofList symbol),
    Binary32.read? (String.ofList number)⟩)

/-- What a clause demands: it is one condition, or two with `AND` between them. -/
def ofClause? (relationOf : String → String) (clause : String) : Option (List Demand) := do
  let (before, last) ← last? relationOf clause.toList
  if before.isEmpty then return [last]
  let (before, first) ← last? relationOf (← before.dropSuffix? " AND ".toList)
  if before.isEmpty then return [first, last] else none

end Demand

/-- The clause can be read, and the row meets everything that it demands. -/
def ClauseHolds {ν : Type} (compares : Operator → ν → Binary32 → Prop)
    (row : String → String → ν) (relationOf : String → String) (clause : String) : Prop :=
  ∃ demands, Demand.ofClause? relationOf clause = some demands ∧
    ∀ demand ∈ demands, demand.Holds compares row

/-- Clauses hold exactly if everything holds that they say. -/
theorem clausesHold_iff {ν : Type} {compares : Operator → ν → Binary32 → Prop}
    {row : String → String → ν} {relationOf : String → String} {clauses : List String}
    {said : List (List Demand)}
    (read : clauses.map (Demand.ofClause? relationOf) = said.map some) :
    (∀ clause ∈ clauses, ClauseHolds compares row relationOf clause) ↔
      ∀ demand ∈ said.flatten, demand.Holds compares row := by
  induction clauses generalizing said with
  | nil =>
      cases said with
      | nil => simp
      | cons group more => cases read
  | cons clause rest ih =>
      cases said with
      | nil => cases read
      | cons group more =>
          rw [List.map_cons, List.map_cons, List.cons.injEq] at read
          have own : ClauseHolds compares row relationOf clause ↔
              ∀ demand ∈ group, demand.Holds compares row := by
            unfold ClauseHolds
            rw [read.1]
            simp
          rw [List.forall_mem_cons, own, ih read.2, List.flatten_cons, List.forall_mem_append]

/-- The column is one of the relation that has it, its name has no point, the operator is given and
the number is finite. -/
structure Condition.IsReadable (relationOf : String → String) (condition : Condition) : Prop where
  relation : relationOf condition.column = condition.relation
  column : '.' ∉ condition.column.toList
  operator : condition.bound.operator ≠ .absent
  number : condition.bound.value.isFinite = true

namespace Condition

variable {relationOf : String → String} {condition : Condition}

theorem querySymbol_eq {operator : Operator} (given : operator ≠ .absent) :
    operator.querySymbol = operator.symbol := by
  cases operator with
  | absent => exact absurd rfl given
  | less | lessOrEqual | equal | greater | greaterOrEqual => rfl

theorem IsReadable.toList_text (readable : condition.IsReadable relationOf) :
    condition.text.toList = condition.relation.toList ++ '.' :: (condition.column.toList ++
      ' ' :: (condition.bound.operator.symbol.toList ++
        ' ' :: condition.bound.value.text.toList)) := by
  rw [text, querySymbol_eq readable.operator]
  simp

/-- A condition is read back from its text, whatever stands before it. -/
theorem IsReadable.last?_text (readable : condition.IsReadable relationOf) (before : List Char) :
    Demand.last? relationOf (before ++ condition.text.toList) =
      some (before, condition.demand) := by
  have noBlank {word : List Char} (inked : NoBlank word) : ' ' ∉ word :=
    fun member => absurd (inked ' ' member) (by decide)
  have number := noBlank (noBlank_of_numberText (Binary32.numberText_text readable.number))
  have symbol := noBlank (noBlank_symbol condition.bound.operator)
  let subject := before ++ condition.relation.toList
  let column := subject ++ '.' :: condition.column.toList
  have text : before ++ condition.text.toList =
      (column ++ ' ' :: condition.bound.operator.symbol.toList) ++
        ' ' :: condition.bound.value.text.toList := by
    rw [readable.toList_text]
    simp [column, subject]
  have relation : subject.dropSuffix? condition.relation.toList = some before :=
    List.dropSuffix?_eq_some_iff.mpr ⟨_, rfl, beq_self_eq_true _⟩
  rw [Demand.last?, text, splitLast?_append _ number]
  simp only [Option.bind_eq_bind, Option.bind_some]
  rw [splitLast?_append _ symbol]
  simp only [Option.bind_some]
  rw [splitLast?_append _ readable.column]
  simp only [Option.bind_some, String.ofList_toList, readable.relation, relation,
    Operator.ofSymbol_symbol, Binary32.read?_text readable.number]
  rfl

end Condition

/-- A filter is read back from its clause. -/
theorem Filter.ofClause?_clause {relationOf : String → String} {filter : Filter}
    {relation column : String}
    (readable : ∀ condition ∈ filter.conditions relation column,
      condition.IsReadable relationOf) :
    Demand.ofClause? relationOf (filter.clause relation column) =
      some ((filter.conditions relation column).map Condition.demand) := by
  cases filter with
  | single bound =>
      have only := readable ⟨relation, column, bound⟩ (by simp [conditions, bounds])
      have clause : (single bound).clause relation column =
          Condition.text ⟨relation, column, bound⟩ := rfl
      have read := only.last?_text []
      rw [List.nil_append] at read
      rw [Demand.ofClause?, clause, read]
      rfl
  | between range =>
      have lower := readable ⟨relation, column, range.lower⟩
        (by simp [conditions, bounds, Range.bounds])
      have upper := readable ⟨relation, column, range.upper⟩
        (by simp [conditions, bounds, Range.bounds])
      let first := Condition.text ⟨relation, column, range.lower⟩
      have clause : ((between range).clause relation column).toList =
          (first.toList ++ " AND ".toList) ++
            (Condition.text ⟨relation, column, range.upper⟩).toList := by
        rw [← String.toList_append, ← String.toList_append]
        rfl
      have readFirst := lower.last?_text []
      rw [List.nil_append] at readFirst
      have joined : (first.toList ++ " AND ".toList).dropSuffix? " AND ".toList =
          some first.toList := List.dropSuffix?_eq_some_iff.mpr ⟨_, rfl, beq_self_eq_true _⟩
      rw [Demand.ofClause?, clause, upper.last?_text]
      simp only [Option.bind_eq_bind, Option.bind_some]
      rw [if_neg (by simp), joined]
      simp only [Option.bind_some]
      rw [readFirst]
      rfl

example : Demand.ofClause? (fun _ => "beatmap") "beatmap.bpm > 9.5 AND beatmap.bpm <= 180" =
    some [⟨"beatmap", "bpm", .greater, Binary32.read? "9.5"⟩,
      ⟨"beatmap", "bpm", .lessOrEqual, Binary32.read? "180"⟩] := by
  decide +kernel

end SearchCommands
