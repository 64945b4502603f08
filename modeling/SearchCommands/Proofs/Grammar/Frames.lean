import SearchCommands.Proofs.Field.QuoteWise
import SearchCommands.Proofs.Grammar.Tokens

/-!
# Tokens around a pair of quotation marks

If no alias of a grammar holds a quotation mark, then from a place outside of all pairs the token
does not depend on what one of the pairs has inside, with one exception: a text field can capture
this pair, and then it captures nothing else.
-/

namespace SearchCommands

open Text Pattern FieldPattern

variable {frame : Frame}

namespace FramedWay

/-- What a framed way captured under a name. -/
theorem capturedText_way (framed : FramedWay) (inside : List Char) (name : String) :
    Field.capturedText (framed.way frame inside) name =
      ((framed.groups.find? fun group => group.name == name).map fun group =>
        (group.start.cursor frame inside).textTo (group.stop.cursor frame inside)).getD [] := by
  simp only [Field.capturedText, Way.group?, way, List.find?_map, Option.map_map]
  rfl

/-- A captured text that does not hold the pair does not depend on it. -/
theorem IsOutside.exists_capturedText {framed : FramedWay} (outside : framed.IsOutside frame)
    {name : String} (plain : '"' ∉ Field.capturedText (framed.way frame []) name) :
    ∃ text, ∀ inside, Field.capturedText (framed.way frame inside) name = text := by
  simp only [capturedText_way] at plain ⊢
  cases found : framed.groups.find? fun group => group.name == name with
  | none => exact ⟨[], fun _ => rfl⟩
  | some group =>
      rcases outside.2 group (List.mem_of_find?_eq_some found) with ⟨startOutside, stopOutside⟩
      apply Spot.exists_textTo_of_not_crossing startOutside
      intro ahead
      by_contra behind
      rcases Spot.exists_textTo_of_crossing stopOutside ahead behind with ⟨left, right, text⟩
      apply plain
      simp [found, text, enclosed]

end FramedWay

/-- A value around a pair of quotation marks is that pair. -/
theorem FieldPattern.TextValue.eq_of_pair {quotable : Bool} {left inside right : List Char}
    (value : TextValue quotable (left ++ (enclosed inside ++ right))) :
    quotable = true ∧ left = [] ∧ right = [] := by
  rcases value with ⟨isQuotable, own, plain, same⟩ | ⟨_, _, plain, _⟩
  · have marks := congrArg (List.count '"') same
    simp only [enclosed, List.count_append, List.count_cons_self, List.count_nil,
      List.count_eq_zero.mpr plain] at marks
    refine ⟨isQuotable, ?_, ?_⟩
    · cases left with
      | nil => rfl
      | cons c left =>
          simp only [enclosed, List.cons_append, List.cons.injEq] at same
          rw [same.1, List.count_cons_self] at marks
          omega
    · rcases List.eq_nil_or_concat right with rfl | ⟨right, c, rfl⟩
      · rfl
      · have lasts := congrArg List.getLast? same
        simp only [enclosed, List.concat_eq_append, ← List.append_assoc, ← List.cons_append,
          List.getLast?_concat, Option.some.injEq] at lasts
        rw [lasts] at marks
        simp only [List.concat_eq_append, List.count_append, List.count_cons_self] at marks
        omega
  · exact absurd (by simp [enclosed]) plain

namespace Grammar

variable {grammar : Grammar} {spot : Spot}

/-- No alias has a quotation mark in it. -/
def IsQuoteFree (grammar : Grammar) : Prop := ∀ field ∈ grammar.fields, field.IsQuoteFree

theorem IsQuoteFree.quoteWise (quoteFree : grammar.IsQuoteFree) : grammar.pattern.QuoteWise := by
  apply QuoteWise.anyOf
  intro pattern member
  rcases List.mem_map.mp member with ⟨field, fieldMember, rfl⟩
  exact (quoteFree field (mem_tried_iff.mp fieldMember)).quoteWise

/-- Whatever stands inside the pair, there is no token at a place, or the same field has a token
there, which ends at the same place. -/
theorem IsQuoteFree.nothing_or_found (quoteFree : grammar.IsQuoteFree)
    (outside : spot.IsOutside frame) :
    (∀ inside, '"' ∉ inside → grammar.tokenAt? (spot.cursor frame inside) = none) ∨
      ∃ field ∈ grammar.fields, ∃ framed : FramedWay, framed.IsOutside frame ∧
        ∃ group ∈ framed.groups, ∀ inside, '"' ∉ inside →
          framed.way frame inside ∈ field.pattern.ways false (spot.cursor frame inside) ∧
          (∃ parts, (framed.way frame inside).groups = ⟨field.name, spot.cursor frame inside,
            group.stop.cursor frame inside⟩ :: parts) ∧
          field.OccursAt (spot.cursor frame inside) (group.stop.cursor frame inside)
            (field.valueOf (framed.way frame inside)) ∧
          grammar.tokenAt? (spot.cursor frame inside) = some ⟨field.name,
            spot.cursor frame inside, group.stop.cursor frame inside,
            field.valueOf (framed.way frame inside)⟩ := by
  by_cases any : ∃ field, field ∈ grammar.fields
  case neg => exact Or.inl fun _ _ => tokenAt?_of_no_field (by simpa using any) _
  rcases quoteFree.quoteWise.readsAlike false outside with ⟨all, allOutside, reads⟩
  cases all with
  | nil =>
      left
      intro inside plain
      simp [tokenAt?, match?, reads inside plain]
  | cons framed rest =>
      right
      have preferred (inside : List Char) (plain : '"' ∉ inside) :
          grammar.pattern.match? (spot.cursor frame inside) = some (framed.way frame inside) := by
        simp [match?, reads inside plain]
      have fieldWay (inside : List Char) (plain : '"' ∉ inside) :=
        (mem_ways_pattern any).mp (List.mem_of_mem_head? (preferred inside plain))
      have groupOf {field : Field} (member : field ∈ grammar.fields) {inside : List Char}
          (wayMember : framed.way frame inside ∈
            field.pattern.ways false (spot.cursor frame inside)) :
          ∃ group parts, framed.groups = group :: parts ∧ group.name = field.name ∧
            (framed.way frame inside).groups = ⟨field.name, spot.cursor frame inside,
              group.stop.cursor frame inside⟩ :: parts.map (FramedGroup.group frame inside) := by
        rcases Field.occursAt_of_mem_ways (isProper member) wayMember with ⟨_, _, groups, _, _⟩
        rcases List.map_eq_cons_iff.mp groups with ⟨group, parts, own, groupEq, partsEq⟩
        refine ⟨group, parts, own, congrArg Group.name groupEq, ?_⟩
        have stopEq : group.stop.cursor frame inside = _ := congrArg Group.stop groupEq
        rw [groups, partsEq, stopEq]
      rcases fieldWay [] (by simp) with ⟨field, member, wayMember⟩
      rcases groupOf member wayMember with ⟨group, parts, own, name, _⟩
      refine ⟨field, member, framed, allOutside framed (by simp), group, by simp [own], ?_⟩
      intro inside plain
      rcases fieldWay inside plain with ⟨other, otherMember, otherWay⟩
      rcases groupOf otherMember otherWay with ⟨group', parts', own', name', groups⟩
      rw [own, List.cons.injEq] at own'
      rcases own' with ⟨rfl, rfl⟩
      have same : other = field := field_eq_of_name otherMember member (by rw [← name', name])
      subst same
      rcases Field.occursAt_of_mem_ways (isProper member) otherWay with
        ⟨stop, names, groups', partNames, occurs⟩
      rw [groups] at groups'
      simp only [List.cons.injEq, Group.mk.injEq, true_and] at groups'
      rcases groups' with ⟨rfl, rfl⟩
      refine ⟨otherWay, ⟨_, groups⟩, occurs, ?_⟩
      simp only [tokenAt?, preferred inside plain, Option.bind_some,
        occurrence?_eq member groups partNames, Option.map_some]

/-- What stands at a place of a framed text, whatever the pair has inside: nothing, a token that
does not depend on the pair, or the text field that captures the pair. -/
inductive FindsAlike (grammar : Grammar) (frame : Frame) (spot : Spot) : Prop where
  | nothing
      (none : ∀ inside, '"' ∉ inside → grammar.tokenAt? (spot.cursor frame inside) = none)
  | token (field : Field) (stop : Spot) (value : FieldValue) (stopOutside : stop.IsOutside frame)
      (side : stop.IsAhead ↔ spot.IsAhead)
      (found : ∀ inside, '"' ∉ inside → grammar.tokenAt? (spot.cursor frame inside) =
        some ⟨field.name, spot.cursor frame inside, stop.cursor frame inside, value⟩)
  | pair (field : Field) (stop : Spot) (member : field ∈ grammar.fields)
      (kind : field.kind = .text true) (stopOutside : stop.IsOutside frame)
      (ahead : spot.IsAhead) (behind : ¬ stop.IsAhead)
      (found : ∀ inside, '"' ∉ inside → grammar.tokenAt? (spot.cursor frame inside) =
        some ⟨field.name, spot.cursor frame inside, stop.cursor frame inside,
          Field.textOf (enclosed inside)⟩)

/-- An occurrence without quotation marks ends on the side of the pair where it starts. -/
theorem side_of_plain {stop : Spot} (outside : spot.IsOutside frame)
    (stopOutside : stop.IsOutside frame)
    (reaches : (spot.cursor frame []).Reaches (stop.cursor frame []))
    (plain : '"' ∉ (spot.cursor frame []).textTo (stop.cursor frame [])) :
    stop.IsAhead ↔ spot.IsAhead := by
  constructor
  · exact Spot.isAhead_of_reaches outside stopOutside reaches
  · intro ahead
    by_contra behind
    rcases Spot.exists_textTo_of_crossing stopOutside ahead behind with ⟨left, right, text⟩
    rw [text] at plain
    exact plain (by simp [enclosed])

theorem reaches_of_occursAt {field : Field} {start stop : Cursor} {value : FieldValue}
    (occurs : field.OccursAt start stop value) : start.Reaches stop := by
  rcases occurs with ⟨blanks, word, rest, split, _, _, _, _, rfl⟩
  exact ⟨blanks ++ word, by simp [split], by simp⟩

/-- A part of a framed text is the value of a text field: no quotation mark stands before it in the
occurrence, which ends with it. -/
structure ValuedBy (field : Field) (quotable : Bool) (frame : Frame) (spot stop : Spot)
    (framed : FramedWay) (part : FramedGroup) (inside : List Char) : Prop where
  reaches : (spot.cursor frame inside).Reaches (part.start.cursor frame inside)
  plain : '"' ∉ (spot.cursor frame inside).textTo (part.start.cursor frame inside)
  text : TextValue quotable (part.group frame inside).text
  last : part.stop.cursor frame inside = stop.cursor frame inside
  valueOf_eq : field.valueOf (framed.way frame inside) = Field.textOf (part.group frame inside).text

/-- The same part of a match of a text field has the value, whatever the pair has inside. -/
theorem exists_valuedBy {field : Field} (quoteFree : field.IsQuoteFree)
    (proper : field.IsProper) {quotable : Bool} (kind : field.kind = .text quotable)
    {framed : FramedWay} {stop : Spot}
    (reads : ∀ inside, '"' ∉ inside →
      framed.way frame inside ∈ field.pattern.ways false (spot.cursor frame inside))
    (ends : ∀ inside, '"' ∉ inside → ∃ parts, (framed.way frame inside).groups =
      ⟨field.name, spot.cursor frame inside, stop.cursor frame inside⟩ :: parts) :
    ∃ part ∈ framed.groups, ∀ inside, '"' ∉ inside →
      ValuedBy field quotable frame spot stop framed part inside := by
  have captures (inside : List Char) (plain : '"' ∉ inside) :=
    quoteFree.text_of_mem_ways proper kind (reads inside plain)
  rcases captures [] (by simp) with ⟨_, _, _, _, _, shape⟩
  rcases List.map_eq_cons_iff.mp shape with ⟨first, rest, split, _, restShape⟩
  rcases List.map_eq_singleton_iff.mp restShape with ⟨part, rfl, _⟩
  refine ⟨part, by simp [split], ?_⟩
  intro inside plain
  rcases captures inside plain with ⟨place, last, toPlace, plainLead, value, shape⟩
  rcases ends inside plain with ⟨_, groups⟩
  have text : Field.capturedText (framed.way frame inside) (Field.textGroup field.name) =
      place.textTo last := by
    simp [Field.capturedText, Way.group?, shape, Field.ne_textGroup, Group.text]
  have lastEq : last = stop.cursor frame inside := by
    rw [shape] at groups
    simpa using congrArg Group.stop (List.cons.inj groups).1
  simp only [FramedWay.way, split, List.map_cons, List.map_nil, List.cons.injEq, and_true] at shape
  have start : part.start.cursor frame inside = place := congrArg Group.start shape.2
  have stopEq : part.stop.cursor frame inside = last := congrArg Group.stop shape.2
  have whole : (part.group frame inside).text = place.textTo last := by rw [shape.2]; rfl
  refine ⟨start ▸ toPlace, start ▸ plainLead, whole ▸ value, stopEq.trans lastEq, ?_⟩
  simp only [Field.valueOf, kind, text, whole]
  rfl

/-- From a place outside of all pairs, tokens are found alike whatever one of the pairs holds. -/
theorem IsQuoteFree.findsAlike (quoteFree : grammar.IsQuoteFree)
    (outside : spot.IsOutside frame) : grammar.FindsAlike frame spot := by
  rcases quoteFree.nothing_or_found outside with none |
    ⟨field, member, framed, framedOutside, group, groupMember, finds⟩
  · exact .nothing none
  have own := quoteFree field member
  have stopOutside := (framedOutside.2 group groupMember).2
  rcases finds [] (by simp) with ⟨wayMember, ⟨parts, groups⟩, occurs, _⟩
  have reaches := reaches_of_occursAt occurs
  have token (value : FieldValue) (side : group.stop.IsAhead ↔ spot.IsAhead)
      (fixed : ∀ inside, '"' ∉ inside → field.valueOf (framed.way frame inside) = value) :
      grammar.FindsAlike frame spot := by
    refine .token field group.stop value stopOutside side ?_
    intro inside plain
    rw [← fixed inside plain]
    exact (finds inside plain).2.2.2
  cases kind : field.kind with
  | flag =>
      have plain := own.occursAt (by simp [kind]) occurs
      apply token .flag (side_of_plain outside stopOutside reaches plain)
      intro inside _
      simp only [Field.valueOf, kind]
  | number signed whole =>
      have plain := own.occursAt (by simp [kind]) occurs
      rcases Field.noQuote_of_number kind occurs with ⟨operatorPlain, numberPlain⟩
      rcases framedOutside.exists_capturedText operatorPlain with ⟨operator, operatorText⟩
      rcases framedOutside.exists_capturedText numberPlain with ⟨digits, digitsText⟩
      apply token (.comparison (.single ⟨Operator.ofSymbol (String.ofList operator),
        String.ofList digits⟩)) (side_of_plain outside stopOutside reaches plain)
      intro inside _
      simp only [Field.valueOf, kind, operatorText, digitsText]
  | text quotable =>
      rcases exists_valuedBy own (isProper member) kind (fun inside plain => (finds inside plain).1)
        (fun inside plain => (finds inside plain).2.1) with ⟨part, partMember, valued⟩
      rcases framedOutside.2 part partMember with ⟨partOutside, partStopOutside⟩
      have first := valued [] (by simp)
      have startSide := side_of_plain outside partOutside first.reaches first.plain
      have stopSide : part.stop.IsAhead ↔ group.stop.IsAhead := by
        rw [Spot.isAhead_iff partStopOutside [], Spot.isAhead_iff stopOutside [], first.last]
      -- either the occurrence stays on its side of the pair, or its value crosses the pair
      by_cases crossing : spot.IsAhead → group.stop.IsAhead
      · have alike : part.start.IsAhead → part.stop.IsAhead :=
          fun ahead => stopSide.mpr (crossing (startSide.mp ahead))
        rcases Spot.exists_textTo_of_not_crossing partOutside alike with ⟨text, same⟩
        apply token (Field.textOf text)
          ⟨Spot.isAhead_of_reaches outside stopOutside reaches, crossing⟩
        intro inside plain
        rw [(valued inside plain).valueOf_eq, Group.text, FramedGroup.group, same]
      · rw [Classical.not_imp] at crossing
        rcases crossing with ⟨ahead, behind⟩
        rcases Spot.exists_textTo_of_crossing partStopOutside (startSide.mpr ahead)
          (fun partAhead => behind (stopSide.mp partAhead)) with ⟨left, right, text⟩
        have value := first.text
        rw [Group.text, FramedGroup.group, text] at value
        rcases value.eq_of_pair with ⟨rfl, rfl, rfl⟩
        refine .pair field group.stop member kind stopOutside ahead behind ?_
        intro inside plain
        rcases finds inside plain with ⟨_, _, _, found⟩
        rw [found, (valued inside plain).valueOf_eq, Group.text, FramedGroup.group, text,
          List.nil_append, List.append_nil]

end Grammar

end SearchCommands
