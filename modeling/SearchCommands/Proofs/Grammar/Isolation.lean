import Mathlib.Data.List.Find
import SearchCommands.Proofs.Grammar.Confinement
import SearchCommands.Proofs.Grammar.Values

/-!
# Two inputs that differ inside a pair of quotation marks

Two such inputs are read alike: the same rule refuses both, or all fields have the same values but
for one text field, which has the respective text.  What is left over is the same but for the texts
in the pair.
-/

namespace SearchCommands

open Text

/-- Two texts that are the same but for the respective text in one pair of quotation marks. -/
def SameAround (first second : String) (text text' : String) : Prop :=
  ∃ before after : String, before.toList.count '"' % 2 = 0 ∧
    text = before ++ "\"" ++ first ++ "\"" ++ after ∧
    text' = before ++ "\"" ++ second ++ "\"" ++ after

theorem SameAround.of_lists {first second : String} {before after : List Char}
    (even : before.count '"' % 2 = 0) :
    SameAround first second (String.ofList (before ++ (enclosed first.toList ++ after)))
      (String.ofList (before ++ (enclosed second.toList ++ after))) := by
  refine ⟨String.ofList before, String.ofList after, by rwa [String.toList_ofList], ?_, ?_⟩
  all_goals
    apply String.toList_inj.mp
    simp [enclosed]

theorem toList_around (before text after : String) :
    (before ++ "\"" ++ text ++ "\"" ++ after).toList =
      before.toList ++ (enclosed text.toList ++ after.toList) := by
  simp [enclosed]

/-- What a capture says: the field with its value. -/
def Capture.entry (capture : Capture) : String × FieldValue := (capture.field, capture.value)

namespace Captures

variable {captures captures' : Captures}

theorem valuesOf_eq (captures : Captures) (field : String) :
    captures.valuesOf field =
      ((captures.map Capture.entry).filter fun entry => entry.1 == field).map Prod.snd := by
  rw [valuesOf, List.filter_map, List.map_map]
  rfl

/-- What one capture of a field has does not matter to other fields. -/
theorem valuesOf_of_ne {before after : List (String × FieldValue)} {field name : String}
    {value value' : FieldValue}
    (entries : captures.map Capture.entry = before ++ (field, value) :: after)
    (entries' : captures'.map Capture.entry = before ++ (field, value') :: after)
    (different : name ≠ field) : captures.valuesOf name = captures'.valuesOf name := by
  have apart : (field == name) = false := by simpa using Ne.symm different
  simp [valuesOf_eq, entries, entries', List.filter_append, apart]

theorem valuesOf_self {before after : List (String × FieldValue)} {field : String}
    {value : FieldValue} (entries : captures.map Capture.entry = before ++ (field, value) :: after) :
    captures.valuesOf field =
      ((before.filter fun entry => entry.1 == field).map Prod.snd) ++
        value :: (after.filter fun entry => entry.1 == field).map Prod.snd := by
  simp [valuesOf_eq, entries, List.filter_append]

theorem countOf_congr (same : captures.map Capture.field = captures'.map Capture.field)
    (field : String) : captures.countOf field = captures'.countOf field := by
  have counted (captures : Captures) :
      captures.countOf field = (captures.map Capture.field).countP (· == field) := by
    rw [List.countP_map]
    rfl
  rw [counted, counted, same]

theorem has_congr (same : captures.map Capture.field = captures'.map Capture.field)
    (field : String) : captures.has field = captures'.has field := by
  rw [Bool.eq_iff_iff, has_iff_countOf_pos, has_iff_countOf_pos, countOf_congr same]

end Captures

/-- The rule is no developer's own. -/
def Rule.IsBuiltIn : Rule → Prop
  | .custom _ _ _ => False
  | _ => True

namespace Grammar

variable {grammar : Grammar} {first second : String}

/-- No field has a rule of the developer's own. -/
def HasBuiltInRules (grammar : Grammar) : Prop :=
  ∀ field ∈ grammar.fields, ∀ rule ∈ field.rules, rule.IsBuiltIn

/-- Captures for which the same rules hold are refused for the same reason. -/
theorem rejection?_congr {captures captures' : Captures}
    (holds : ∀ field ∈ grammar.fields, ∀ rule ∈ field.rules,
      rule.holds field.name captures = rule.holds field.name captures') :
    grammar.rejection? captures = grammar.rejection? captures' := by
  rw [rejection?, rejection?, ← List.head?_filterMap, ← List.head?_filterMap]
  apply congrArg List.head?
  apply List.filterMap_congr
  intro field member
  have found : (field.rules.find? fun rule => !rule.holds field.name captures) =
      field.rules.find? fun rule => !rule.holds field.name captures' := by
    apply List.find?_congr
    intro rule ruleMember
    rw [holds field member rule ruleMember]
  rw [Field.rejection?, Field.rejection?, found]

/-- The rules look at the captured fields only. -/
theorem HasBuiltInRules.rejection?_congr (builtIn : grammar.HasBuiltInRules)
    {captures captures' : Captures}
    (same : captures.map Capture.field = captures'.map Capture.field) :
    grammar.rejection? captures = grammar.rejection? captures' := by
  apply Grammar.rejection?_congr
  intro field member rule ruleMember
  have isBuiltIn := builtIn field member rule ruleMember
  cases rule with
  | atMost limit => simp only [Rule.holds, Captures.countOf_congr same]
  | excludes other => simp only [Rule.holds, Captures.has_congr same]
  | custom => exact isBuiltIn.elim

/-- What two inputs have in common: their captures are the same and the pair is left over, or the
pair is the value of one capture and nothing else differs. -/
inductive CapturesAlike (grammar : Grammar) (first second input input' : String) : Prop where
  | leftOver
      (entries : (grammar.captures input).map Capture.entry =
        (grammar.captures input').map Capture.entry)
      (leftover : SameAround first second (grammar.leftover input) (grammar.leftover input'))
  | captured (before after : List (String × FieldValue)) (field : Field)
      (member : field ∈ grammar.fields) (kind : field.kind = .text true)
      (entries : (grammar.captures input).map Capture.entry =
        before ++ (field.name, .text (String.ofList (trim first.toList))) :: after)
      (entries' : (grammar.captures input').map Capture.entry =
        before ++ (field.name, .text (String.ofList (trim second.toList))) :: after)
      (leftover : grammar.leftover input = grammar.leftover input')

theorem IsQuoteFree.capturesAlike (quoteFree : grammar.IsQuoteFree) {input input' : String}
    (firstPlain : '"' ∉ first.toList) (secondPlain : '"' ∉ second.toList)
    (around : SameAround first second input input') :
    grammar.CapturesAlike first second input input' := by
  rcases around with ⟨before, after, even, rfl, rfl⟩
  let frame : Frame := ⟨before.toList.reverse, after.toList⟩
  have frameEven : frame.before.count '"' % 2 = 0 := by
    rwa [List.count_reverse]
  have outside : (Spot.ahead [] before.toList).IsOutside frame := ⟨by simp [frame], even⟩
  rcases quoteFree.scansTo_ahead frameEven outside with ⟨entries, uncovered, confined, scansTo⟩
  have reads (text : String) (plain : '"' ∉ text.toList) :
      (grammar.captures (before ++ "\"" ++ text ++ "\"" ++ after)).map Capture.entry =
        entries text.toList ∧
      grammar.leftover (before ++ "\"" ++ text ++ "\"" ++ after) =
        String.ofList (trim (uncovered text.toList)) := by
    rcases scansTo text.toList plain with ⟨tokens, scans, entriesEq, uncoveredEq⟩
    have start : (Spot.ahead [] before.toList).cursor frame text.toList =
        Cursor.ofText (before ++ "\"" ++ text ++ "\"" ++ after).toList := by
      rw [toList_around]
      rfl
    rw [start] at scans uncoveredEq
    refine ⟨?_, ?_⟩
    · rw [captures, tokens_eq_iff.mpr scans, List.map_map, ← entriesEq]
      rfl
    · rw [leftover_of_scans scans, uncoveredEq]
  rcases reads first firstPlain with ⟨entriesFirst, leftFirst⟩
  rcases reads second secondPlain with ⟨entriesSecond, leftSecond⟩
  have trimmed := confined.trim
  generalize trimEq : (fun inside => trim (uncovered inside)) = left at trimmed
  rw [congrFun trimEq first.toList] at leftFirst
  rw [congrFun trimEq second.toList] at leftSecond
  clear trimEq confined scansTo reads
  cases trimmed with
  | leftOver entries left right leftEven =>
      apply CapturesAlike.leftOver
      · rw [entriesFirst, entriesSecond]
      · rw [leftFirst, leftSecond]
        exact SameAround.of_lists leftEven
  | captured before after uncovered field member kind =>
      simp only [Field.textOf, unquote_enclosed] at entriesFirst entriesSecond
      apply CapturesAlike.captured before after field member kind entriesFirst entriesSecond
      rw [leftFirst, leftSecond]

variable {input input' : String}

namespace CapturesAlike

variable (alike : grammar.CapturesAlike first second input input')

include alike

/-- The same fields are captured in the same order. -/
theorem fields_eq :
    (grammar.captures input).map Capture.field = (grammar.captures input').map Capture.field := by
  have named (captures : Captures) :
      captures.map Capture.field = (captures.map Capture.entry).map Prod.fst := by
    rw [List.map_map]
    rfl
  rw [named, named]
  cases alike with
  | leftOver entries _ => rw [entries]
  | captured before after field _ _ entries entries' _ =>
      rw [entries, entries']
      simp

end CapturesAlike

/-- Captures that say the same give the same values. -/
theorem values_congr (same : (grammar.captures input).map Capture.entry =
    (grammar.captures input').map Capture.entry) :
    grammar.values (grammar.captures input) = grammar.values (grammar.captures input') := by
  simp only [values, Captures.valuesOf_eq, same]

/-- Captures that say the same fill the same target, if they are refused for the same reason. -/
theorem fill_congr {σ : Type}
    (rules : grammar.rejection? (grammar.captures input) =
      grammar.rejection? (grammar.captures input'))
    (same : (grammar.captures input).map Capture.entry =
      (grammar.captures input').map Capture.entry) (setters : List (Setter σ)) (target : σ) :
    (∃ error, grammar.fill setters target input = .error ⟨error, grammar.leftover input⟩ ∧
        grammar.fill setters target input' = .error ⟨error, grammar.leftover input'⟩) ∨
      ∃ filled, grammar.fill setters target input = .ok ⟨filled, grammar.leftover input⟩ ∧
        grammar.fill setters target input' = .ok ⟨filled, grammar.leftover input'⟩ := by
  rw [fill_eq, fill_eq, rules, values_congr same]
  cases grammar.rejection? (grammar.captures input') with
  | some reason => exact Or.inl ⟨.rejected reason, rfl, rfl⟩
  | none =>
      cases Setter.assignAll setters ((grammar.values (grammar.captures input')).filter
        fun entry => entry.2.isPresent) target with
      | error error => exact Or.inl ⟨error, rfl, rfl⟩
      | ok filled => exact Or.inr ⟨filled, rfl, rfl⟩

theorem HasBuiltInRules.fill_congr {σ : Type} (builtIn : grammar.HasBuiltInRules)
    (same : (grammar.captures input).map Capture.entry =
      (grammar.captures input').map Capture.entry) (setters : List (Setter σ)) (target : σ) :
    (∃ error, grammar.fill setters target input = .error ⟨error, grammar.leftover input⟩ ∧
        grammar.fill setters target input' = .error ⟨error, grammar.leftover input'⟩) ∨
      ∃ filled, grammar.fill setters target input = .ok ⟨filled, grammar.leftover input⟩ ∧
        grammar.fill setters target input' = .ok ⟨filled, grammar.leftover input'⟩ := by
  have fields := congrArg (List.map Prod.fst) same
  rw [List.map_map, List.map_map] at fields
  exact Grammar.fill_congr (builtIn.rejection?_congr fields) same setters target

theorem IsPlain.isQuoteFree (plain : grammar.IsPlain) : grammar.IsQuoteFree :=
  fun _ member => plain.quoteFree member

end Grammar

end SearchCommands
