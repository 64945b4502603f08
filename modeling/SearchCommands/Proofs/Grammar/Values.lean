import SearchCommands.Command
import SearchCommands.Proofs.Field.Words
import SearchCommands.Proofs.Filter.Bounds
import SearchCommands.Proofs.Grammar.Scans

/-!
# What was captured

The occurrences of a field have values of the sort that the field reads: texts, bounds or flags.
From these lists follows everything that a command does with its input: whether the rules hold, the
value of each field and what the setters put into the target.
-/

namespace SearchCommands

namespace Captures

/-- The texts of the occurrences of a field. -/
def textsOf (captures : Captures) (field : String) : List String :=
  (captures.valuesOf field).filterMap FieldValue.text?

/-- The bounds of the occurrences of a field. -/
def boundsOf (captures : Captures) (field : String) : List (Bound String) :=
  (captures.valuesOf field).filterMap fun value => value.comparison?.map Comparison.primary

theorem length_valuesOf (captures : Captures) (field : String) :
    (captures.valuesOf field).length = captures.countOf field := by
  rw [valuesOf, List.length_map, countOf, List.countP_eq_length_filter]

theorem mem_valuesOf_iff {captures : Captures} {field : String} {value : FieldValue} :
    value ∈ captures.valuesOf field ↔
      ∃ capture ∈ captures, capture.field = field ∧ capture.value = value := by
  simp only [valuesOf, List.mem_map, List.mem_filter, beq_iff_eq, and_assoc]

theorem has_eq_isEmpty (captures : Captures) (field : String) :
    captures.has field = !(captures.valuesOf field).isEmpty := by
  rw [Bool.eq_iff_iff, has_iff_countOf_pos, ← length_valuesOf]
  simp [List.length_pos_iff]

end Captures

namespace FieldValue

/-- Values that are all of one sort are made from what that sort holds. -/
theorem eq_map_filterMap {α : Type} (make : α → FieldValue) (read : FieldValue → Option α)
    (back : ∀ content, read (make content) = some content) {values : List FieldValue}
    (sort : ∀ value ∈ values, ∃ content, value = make content) :
    values = (values.filterMap read).map make := by
  induction values with
  | nil => rfl
  | cons value rest ih =>
      rcases sort value (by simp) with ⟨content, rfl⟩
      have tail := ih fun other inside => sort other (List.mem_cons_of_mem _ inside)
      simp only [List.filterMap_cons, back, List.map_cons]
      rw [← tail]

theorem ofCaptured_texts (texts : List String) :
    ofCaptured (texts.map text) = (texts.head?.map text).getD missing := by
  cases texts with
  | nil => rfl
  | cons first rest => rfl

theorem ofCaptured_bounds (bounds : List (Bound String)) :
    ofCaptured (bounds.map fun bound => comparison (.single bound)) =
      match bounds with
      | [] => missing
      | [only] => comparison (.single only)
      | first :: second :: _ => comparison (.pair first second) := by
  match bounds with
  | [] => rfl
  | [only] => rfl
  | first :: second :: _ => rfl

theorem isPresent_ofCaptured {values : List FieldValue}
    (found : ∀ value ∈ values, value ≠ missing) :
    (ofCaptured values).isPresent = !values.isEmpty := by
  match values with
  | [] => rfl
  | missing :: _ => simp at found
  | flag :: _ => rfl
  | text _ :: _ => rfl
  | [comparison _] => rfl
  | comparison _ :: second :: _ =>
      simp only [ofCaptured]
      cases second.comparison? <;> rfl

end FieldValue

namespace Grammar

variable {grammar : Grammar}

/-- A capture is of a declared field. -/
theorem exists_field_of_mem_captures {input : String} {capture : Capture}
    (member : capture ∈ grammar.captures input) :
    ∃ field ∈ grammar.fields, capture.field = field.name := by
  rcases List.mem_map.mp member with ⟨token, tokenMember, rfl⟩
  have scans := grammar.scans_tokens input
  rcases scans.occursAt tokenMember with ⟨field, fieldMember, name, _⟩
  exact ⟨field, fieldMember, name⟩

/-- A captured value belongs to an occurrence of the field outside quotation marks. -/
theorem occursAt_of_mem_valuesOf {input : String} {field : Field} (member : field ∈ grammar.fields)
    {value : FieldValue} (captured : value ∈ (grammar.captures input).valuesOf field.name) :
    ∃ start stop, field.OccursAt start stop value ∧ start.insideQuotes = false := by
  rcases Captures.mem_valuesOf_iff.mp captured with ⟨capture, inside, name, rfl⟩
  rcases List.mem_map.mp inside with ⟨token, tokenMember, rfl⟩
  have scans := grammar.scans_tokens input
  rcases scans.occursAt tokenMember with ⟨other, otherMember, otherName, occurs, outside⟩
  have same : other = field := field_eq_of_name otherMember member (by rw [← otherName]; exact name)
  exact ⟨token.start, token.stop, same ▸ occurs, outside⟩

/-- A captured value is the value of a word of the field. -/
theorem spells_of_mem_valuesOf {input : String} {field : Field} (member : field ∈ grammar.fields)
    {value : FieldValue} (captured : value ∈ (grammar.captures input).valuesOf field.name) :
    ∃ word, field.Spells word value := by
  rcases occursAt_of_mem_valuesOf member captured with ⟨_, _, ⟨_, word, _, _, _, spells, _⟩, _⟩
  exact ⟨word, spells⟩

theorem valuesOf_text (input : String) {field : Field} (member : field ∈ grammar.fields)
    {quotable : Bool} (kind : field.kind = .text quotable) :
    (grammar.captures input).valuesOf field.name =
      ((grammar.captures input).textsOf field.name).map FieldValue.text := by
  have texts : ∀ value ∈ (grammar.captures input).valuesOf field.name,
      ∃ text, value = FieldValue.text text := by
    intro value captured
    rcases spells_of_mem_valuesOf member captured with ⟨word, spells⟩
    cases spells with
    | flag isFlag => rw [kind] at isFlag; cases isFlag
    | text => exact ⟨_, rfl⟩
    | positional => exact ⟨_, rfl⟩
    | number isNumber => rw [kind] at isNumber; cases isNumber
  exact FieldValue.eq_map_filterMap .text _ (fun _ => rfl) texts

theorem valuesOf_number (input : String) {field : Field} (member : field ∈ grammar.fields)
    {signed whole : Bool} (kind : field.kind = .number signed whole) :
    (grammar.captures input).valuesOf field.name =
      ((grammar.captures input).boundsOf field.name).map fun bound =>
        FieldValue.comparison (.single bound) := by
  have bounds : ∀ value ∈ (grammar.captures input).valuesOf field.name,
      ∃ bound, value = FieldValue.comparison (.single bound) := by
    intro value captured
    rcases spells_of_mem_valuesOf member captured with ⟨word, spells⟩
    rcases spells.of_number kind with ⟨_, _, _, _, rfl, _⟩
    exact ⟨_, rfl⟩
  exact FieldValue.eq_map_filterMap (fun bound => .comparison (.single bound)) _
    (fun _ => rfl) bounds

/-- A bound of a number field has an operator, and its value is a number of the field. -/
theorem mem_boundsOf {input : String} {field : Field} (member : field ∈ grammar.fields)
    {signed whole : Bool} (kind : field.kind = .number signed whole) {bound : Bound String}
    (captured : bound ∈ (grammar.captures input).boundsOf field.name) :
    bound.operator ≠ .absent ∧ FieldPattern.NumberText signed whole bound.value.toList := by
  have value : FieldValue.comparison (.single bound) ∈
      (grammar.captures input).valuesOf field.name := by
    rw [valuesOf_number input member kind]
    exact List.mem_map_of_mem captured
  rcases spells_of_mem_valuesOf member value with ⟨word, spells⟩
  rcases spells.of_number kind with ⟨_, operator, digits, _, valueEq, _, given, inside⟩
  cases valueEq
  exact ⟨given, by rwa [String.toList_ofList]⟩

/-- The value of a bound has no blanks in it. -/
theorem noBlank_of_mem_boundsOf {input : String} {field : Field} (member : field ∈ grammar.fields)
    {signed whole : Bool} (kind : field.kind = .number signed whole) :
    ∀ bound ∈ (grammar.captures input).boundsOf field.name, Text.NoBlank bound.value.toList := by
  intro bound captured
  exact FieldPattern.noBlank_of_numberText (mem_boundsOf member kind captured).2

/-- A field has a value exactly if it occurs. -/
theorem isPresent_value (input : String) {field : Field}
    (member : field ∈ grammar.fields) :
    (FieldValue.ofCaptured ((grammar.captures input).valuesOf field.name)).isPresent =
      (grammar.captures input).has field.name := by
  rw [Captures.has_eq_isEmpty]
  apply FieldValue.isPresent_ofCaptured
  intro value captured
  obtain ⟨word, spells⟩ := spells_of_mem_valuesOf member captured
  cases spells <;> simp [Field.textOf, Field.boundOf]

theorem rejection?_eq_none_iff {captures : Captures} :
    grammar.rejection? captures = none ↔
      ∀ field ∈ grammar.fields, ∀ rule ∈ field.rules, rule.holds field.name captures = true := by
  simp [rejection?, Field.rejection?, List.findSome?_eq_none_iff, List.find?_eq_none]

theorem read_eq_ok_iff {input : String} {reading : Reading} :
    grammar.read input = .ok reading ↔
      grammar.rejection? (grammar.captures input) = none ∧
        reading = ⟨grammar.values (grammar.captures input), grammar.captures input,
          grammar.leftover input⟩ := by
  unfold read
  simp only
  split
  · rename_i reason rejected
    simp [rejected]
  · rename_i accepted
    simp [accepted, eq_comm]

theorem read_eq_error_iff {input : String} {failure : Failure} :
    grammar.read input = .error failure ↔
      ∃ reason, grammar.rejection? (grammar.captures input) = some reason ∧
        failure = ⟨.rejected reason, grammar.leftover input⟩ := by
  unfold read
  simp only
  cases grammar.rejection? (grammar.captures input) <;> simp [eq_comm]

/-- A failure keeps what would have been left over with success. -/
theorem leftover_of_error {input : String} {failure : Failure}
    (refused : grammar.read input = .error failure) :
    failure.leftover = grammar.leftover input := by
  obtain ⟨reason, _, rfl⟩ := read_eq_error_iff.mp refused
  rfl

end Grammar

namespace Setter

variable {ι σ : Type}

/-- Hands a value to a setter, unless the input had nothing for the field. -/
def assignPresent (setter : Setter σ) (value : FieldValue) (target : σ) :
    Except CommandError σ :=
  if value.isPresent then setter.assign value target else .ok target

/-- Hands the values of some fields to the setters of these fields. -/
def assignEach (setter : ι → Setter σ) (value : ι → FieldValue) :
    List ι → σ → Except CommandError σ
  | [], target => .ok target
  | part :: rest, target =>
      match (setter part).assignPresent (value part) target with
      | .ok target => assignEach setter value rest target
      | .error error => .error error

theorem assignEach_cons_iff {setter : ι → Setter σ} {value : ι → FieldValue} {part : ι}
    {rest : List ι} {target target' : σ} :
    assignEach setter value (part :: rest) target = .ok target' ↔
      ∃ next, (setter part).assignPresent (value part) target = .ok next ∧
        assignEach setter value rest next = .ok target' := by
  rw [assignEach]
  cases (setter part).assignPresent (value part) target with
  | error error => simp
  | ok next => simp

/-- Setters that are found under the names of their fields are handed the values of these. -/
theorem assignAll_eq_assignEach {setters : List (Setter σ)} {setter : ι → Setter σ}
    {name : ι → String} (found : ∀ part, setters.find? (fun other => other.field == name part) =
      some (setter part)) (value : ι → FieldValue) (parts : List ι) (target : σ) :
    assignAll setters
        ((parts.map fun part => (name part, value part)).filter fun entry => entry.2.isPresent)
        target =
      assignEach setter value parts target := by
  induction parts generalizing target with
  | nil => rfl
  | cons part rest ih =>
      rw [List.map_cons, List.filter_cons, assignEach, assignPresent]
      split
      · rw [assignAll, found part]
        simp only
        cases (setter part).assign (value part) target with
        | error error => rfl
        | ok next => exact ih next
      · exact ih target

end Setter

namespace Grammar

variable {σ : Type}

/-- Filling a target: the rules come first, then the setters. -/
theorem fill_eq (grammar : Grammar) (setters : List (Setter σ)) (target : σ) (input : String) :
    grammar.fill setters target input =
      match grammar.rejection? (grammar.captures input) with
      | some reason => .error ⟨.rejected reason, grammar.leftover input⟩
      | none =>
          match Setter.assignAll setters ((grammar.values (grammar.captures input)).filter
            fun entry => entry.2.isPresent) target with
          | .error error => .error ⟨error, grammar.leftover input⟩
          | .ok filled => .ok ⟨filled, grammar.leftover input⟩ := by
  unfold fill read
  simp only
  cases grammar.rejection? (grammar.captures input) <;> rfl

/-- Filling a target succeeds exactly if the rules hold and all setters succeed. -/
theorem fill_eq_ok_iff {grammar : Grammar} {setters : List (Setter σ)} {target : σ}
    {input : String} {outcome : Outcome σ} :
    grammar.fill setters target input = .ok outcome ↔
      grammar.rejection? (grammar.captures input) = none ∧
        Setter.assignAll setters
          ((grammar.values (grammar.captures input)).filter fun entry => entry.2.isPresent)
          target = .ok outcome.value ∧
        outcome.leftover = grammar.leftover input := by
  rcases outcome with ⟨value, leftover⟩
  rw [fill_eq]
  cases grammar.rejection? (grammar.captures input) with
  | some reason => simp
  | none =>
      simp only [true_and]
      split
      · rename_i failed
        simp [failed]
      · rename_i filled
        simp [filled, eq_comm]

end Grammar

end SearchCommands
