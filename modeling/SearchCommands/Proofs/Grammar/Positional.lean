import SearchCommands.Proofs.Grammar.Crossing
import SearchCommands.Proofs.Grammar.Preference
import SearchCommands.Proofs.Grammar.Spans

/-!
# Fields at the start of the input

A field without aliases occurs at the start of the input or nowhere.  So it is captured exactly if
the token at the start is its own (`Grammar.mem_tokens_iff_of_positional`), which is so if no field
with aliases occurs there and it is the first of the fields without aliases that does
(`Grammar.tokenAt?_eq_some_iff_of_positional`).
-/

namespace SearchCommands

open Text FieldPattern

namespace Field

variable {field : Field}

theorem match?_eq_none_iff (proper : field.IsProper) {cursor : Cursor} :
    field.pattern.match? cursor = none ↔ field.tokenAt? cursor = none := by
  cases preferred : field.pattern.match? cursor with
  | none => simp [tokenAt?, preferred]
  | some way =>
      obtain ⟨stop, found, _⟩ := tokenAt?_of_match? proper preferred
      simp [found]

/-- At the start of a text that starts with no blank, a field without aliases has the value with
which the text starts. -/
theorem tokenAt?_eq_some_iff_of_positional (proper : field.IsProper) {quotable : Bool}
    (kind : field.kind = .text quotable) (positional : field.isPositional = true)
    {text : List Char} (inked : StartsInked text) {token : Token} :
    field.tokenAt? (Cursor.ofText text) = some token ↔
      ∃ value rest, text = value ++ rest ∧ TextValue quotable value ∧ EndsWord rest ∧
        token = ⟨field.name, Cursor.ofText text, ⟨value.reverse, rest⟩, textOf value⟩ := by
  constructor
  · intro found
    obtain ⟨name, start, occurs⟩ := tokenAt?_eq_some proper found
    have here : field.OccursAt ⟨[], [] ++ text⟩ token.stop token.value := occurs
    obtain ⟨word, rest, split, spells, ends, _, stop⟩ :=
      here.after_blanks proper AllBlank.nil inked
    rcases token with ⟨_, _, _, value⟩
    simp only at name start stop spells
    cases spells with
    | flag isFlag => simp [kind] at isFlag
    | text _ aliased => simp [positional] at aliased
    | positional isText _ inside =>
        simp only [kind, FieldKind.text.injEq] at isText
        refine ⟨word, rest, split, isText ▸ inside, ends, ?_⟩
        simp [name, start, stop]
    | number isNumber => simp [kind] at isNumber
  · rintro ⟨value, rest, rfl, inside, ends, rfl⟩
    have occurs : field.OccursAt (Cursor.ofText (value ++ rest)) ⟨value.reverse, rest⟩
        (textOf value) :=
      ⟨[], value, rest, rfl, AllBlank.nil, .positional kind positional inside, ends, Or.inl rfl,
        by simp [Cursor.ofText]⟩
    apply occurs.tokenAt?_eq proper
    simp [kind]

end Field

namespace Grammar

variable {grammar : Grammar} {field : Field}

/-- Every token of a scan is the one that is found at its start. -/
theorem Scans.tokenAt?_eq {cursor : Cursor} {tokens : List Token}
    (scans : grammar.Scans cursor tokens) {token : Token} (member : token ∈ tokens) :
    grammar.tokenAt? token.start = some token := by
  induction scans with
  | done => simp at member
  | pass _ _ ih => exact ih member
  | take found _ _ ih =>
      rcases List.mem_cons.mp member with rfl | member
      · obtain ⟨_, _, _, start, _⟩ := tokenAt?_eq_some found
        simpa only [start] using found
      · exact ih member

/-- A field without aliases has the token at the start of the input or none. -/
theorem mem_tokens_iff_of_positional (member : field ∈ grammar.fields)
    (positional : field.isPositional = true) {input : String} {token : Token}
    (own : token.field = field.name) :
    token ∈ grammar.tokens input ↔
      grammar.tokenAt? (Cursor.ofText input.toList) = some token := by
  have scans := grammar.scans_tokens input
  constructor
  · intro inside
    obtain ⟨other, otherMember, name, occurs, _⟩ := scans.occursAt inside
    obtain rfl : other = field := field_eq_of_name otherMember member (name.symm.trans own)
    have first : token.start.before = [] := by
      obtain ⟨_, _, _, _, _, _, _, first | ⟨aliased, _⟩, _⟩ := occurs
      · exact first
      · simp [positional] at aliased
    obtain ⟨text, after, before⟩ := (scans.reaches inside).1
    simp only [Cursor.ofText, first, List.append_nil, List.nil_eq, List.reverse_eq_nil_iff]
      at before after
    have start : token.start = Cursor.ofText input.toList := by
      rcases token with ⟨_, ⟨_, _⟩, _, _⟩
      simp only at first after
      simp [Cursor.ofText, first, after, before]
    exact start ▸ scans.tokenAt?_eq inside
  · intro found
    obtain ⟨rest, tokens, _⟩ := scans.of_found found (Cursor.insideQuotes_of_even rfl _)
    simp [tokens]

/-- A field without aliases has the token where no field with aliases occurs and it is the first
one without aliases that does. -/
theorem tokenAt?_eq_some_iff_of_positional (member : field ∈ grammar.fields)
    (positional : field.isPositional = true) {cursor : Cursor} {token : Token}
    (own : token.field = field.name) :
    grammar.tokenAt? cursor = some token ↔
      (∀ other ∈ grammar.fields, other.isPositional = false →
        other.pattern.match? cursor = none) ∧
      (grammar.fields.filter Field.isPositional).findSome? (fun other => other.tokenAt? cursor) =
        some token := by
  have nothing : ((grammar.fields.filter fun other => !other.isPositional).findSome?
        fun other => other.tokenAt? cursor) = none ↔
      ∀ other ∈ grammar.fields, other.isPositional = false →
        other.pattern.match? cursor = none := by
    simp only [List.findSome?_eq_none_iff, List.mem_filter, Bool.not_eq_true', and_imp]
    apply forall₂_congr
    intro other otherMember
    rw [Field.match?_eq_none_iff (isProper otherMember)]
  rw [tokenAt?_eq_findSome?, tried, List.findSome?_append, Option.or_eq_some_iff, nothing]
  constructor
  · rintro (aliased | found)
    · -- the token of a field with aliases has another name
      obtain ⟨other, inside, found⟩ := List.exists_of_findSome?_eq_some aliased
      obtain ⟨otherMember, isAliased⟩ := List.mem_filter.mp inside
      obtain ⟨name, _, _⟩ := Field.tokenAt?_eq_some (isProper otherMember) found
      obtain rfl := field_eq_of_name otherMember member (name.symm.trans own)
      simp [positional] at isAliased
    · exact found
  · exact Or.inr

/-- A field without aliases that is captured has the value of the token at the start. -/
theorem valuesOf_of_positional (member : field ∈ grammar.fields)
    (positional : field.isPositional = true) {input : String} {token : Token}
    (own : token.field = field.name)
    (found : grammar.tokenAt? (Cursor.ofText input.toList) = some token) :
    (grammar.captures input).valuesOf field.name = [token.value] := by
  have inside := (mem_tokens_iff_of_positional member positional own).mpr found
  have value : token.value ∈ (grammar.captures input).valuesOf field.name := by
    apply Captures.mem_valuesOf_iff.mpr
    exact ⟨token.capture, List.mem_map_of_mem inside, own, rfl⟩
  have once := countOf_le_one_of_isPositional member positional input
  rw [← Captures.length_valuesOf] at once
  generalize (grammar.captures input).valuesOf field.name = values at value once
  match values with
  | [] => simp at value
  | [only] => simp [List.mem_singleton.mp value]
  | _ :: _ :: _ => simp at once

/-- A field without aliases is captured exactly if it has the token at the start. -/
theorem has_iff_of_positional (member : field ∈ grammar.fields)
    (positional : field.isPositional = true) (input : String) :
    (grammar.captures input).has field.name = true ↔
      ∃ token, token.field = field.name ∧
        grammar.tokenAt? (Cursor.ofText input.toList) = some token := by
  simp only [Captures.has, captures, List.any_map, List.any_eq_true, Function.comp_apply,
    Token.capture, beq_iff_eq]
  constructor
  · rintro ⟨token, inside, own⟩
    exact ⟨token, own, (mem_tokens_iff_of_positional member positional own).mp inside⟩
  · rintro ⟨token, own, found⟩
    exact ⟨token, (mem_tokens_iff_of_positional member positional own).mpr found, own⟩

end Grammar

end SearchCommands
