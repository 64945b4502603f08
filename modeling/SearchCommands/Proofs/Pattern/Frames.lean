import SearchCommands.Proofs.Pattern.Lookback
import SearchCommands.Proofs.Text.Words

/-!
# Texts around a pair of quotation marks

Take a text with one pair of quotation marks in it, and let what stands between these marks vary.
`Pattern.ReadsAlike` says that from a place outside of the pair a pattern reads on in the same ways
whatever that is.  Behind the pair this holds for every pattern, since patterns look back one
character only; before the pair it is kept by sequences, choices and captures.
-/

namespace SearchCommands

open Text

/-- The text around one pair of quotation marks. -/
structure Frame where
  /-- The text before the pair, the nearest character first. -/
  before : List Char
  /-- The text behind the pair. -/
  after : List Char

/-- A place in a framed text that is not inside the pair. -/
inductive Spot where
  /-- A place before the pair, with the text up to the pair. -/
  | ahead (before text : List Char)
  /-- A place behind the pair, with the text back to the pair, the nearest character first. -/
  | behind (text after : List Char)

namespace Spot

/-- The place in the text with the given inside of the pair. -/
def cursor (frame : Frame) (inside : List Char) : Spot → Cursor
  | ahead before text => ⟨before, text ++ (enclosed inside ++ frame.after)⟩
  | behind text after => ⟨text ++ ((enclosed inside).reverse ++ frame.before), after⟩

/-- The place is in the frame, and none of the other pairs before this one is open there. -/
def IsOutside (frame : Frame) : Spot → Prop
  | ahead before text => frame.before = text.reverse ++ before ∧ text.count '"' % 2 = 0
  | behind text after => frame.after = text.reverse ++ after

/-- Whether the place is before the pair. -/
def IsAhead : Spot → Prop
  | ahead _ _ => True
  | behind _ _ => False

end Spot

/-- A captured part of a framed text. -/
structure FramedGroup where
  name : String
  start : Spot
  stop : Spot

/-- A way in a framed text. -/
structure FramedWay where
  stop : Spot
  groups : List FramedGroup

/-- The part in the text with the given inside of the pair. -/
def FramedGroup.group (frame : Frame) (inside : List Char) (framed : FramedGroup) : Group :=
  ⟨framed.name, framed.start.cursor frame inside, framed.stop.cursor frame inside⟩

/-- The way in the text with the given inside of the pair. -/
def FramedWay.way (frame : Frame) (inside : List Char) (framed : FramedWay) : Way :=
  ⟨framed.stop.cursor frame inside, framed.groups.map (FramedGroup.group frame inside)⟩

/-- The way ends in the frame outside of the pairs, and so do the parts that it captures. -/
def FramedWay.IsOutside (frame : Frame) (framed : FramedWay) : Prop :=
  framed.stop.IsOutside frame ∧
    ∀ group ∈ framed.groups, group.start.IsOutside frame ∧ group.stop.IsOutside frame

namespace Pattern

/-- What a way captures stands between its start and its end. -/
theorem reaches_of_mem_groups {folding : Bool} {pattern : Pattern} {cursor : Cursor} {way : Way}
    (member : way ∈ pattern.ways folding cursor) {group : Group} (inside : group ∈ way.groups) :
    cursor.Reaches group.start ∧ group.start.Reaches group.stop ∧
      group.stop.Reaches way.stop := by
  induction pattern generalizing folding cursor way with
  | empty =>
      rw [List.mem_singleton.mp member] at inside
      cases inside
  | inputStart | inputEnd | wordEdge =>
      simp only [ways] at member
      split at member
      · rw [List.mem_singleton.mp member] at inside
        cases inside
      · cases member
  | one set =>
      rcases cursor with ⟨before, after⟩
      cases after with
      | nil => cases member
      | cons c after =>
          simp only [ways] at member
          split at member
          · rw [List.mem_singleton.mp member] at inside
            cases inside
          · cases member
  | oneOrMore | anyNumber | literal =>
      rcases List.mem_map.mp member with ⟨_, _, rfl⟩
      cases inside
  | andThen first second ihFirst ihSecond =>
      simp only [ways, List.mem_flatMap, List.mem_map] at member
      rcases member with ⟨head, headMember, tail, tailMember, rfl⟩
      have toHead := reaches_of_mem_ways headMember
      have toTail := reaches_of_mem_ways tailMember
      rcases List.mem_append.mp inside with inside | inside
      · rcases ihFirst headMember inside with ⟨start, stop, onwards⟩
        exact ⟨start, stop, onwards.trans toTail⟩
      · rcases ihSecond tailMember inside with ⟨start, stop, onwards⟩
        exact ⟨toHead.trans start, stop, onwards⟩
  | orElse first second ihFirst ihSecond =>
      rcases List.mem_append.mp member with member | member
      · exact ihFirst member inside
      · exact ihSecond member inside
  | optional body ih =>
      rcases List.mem_append.mp member with member | member
      · exact ih member inside
      · rw [List.mem_singleton.mp member] at inside
        cases inside
  | grouped body ih => exact ih member inside
  | anyCase body ih => exact ih member inside
  | captured name body ih =>
      rcases List.mem_map.mp member with ⟨inner, innerMember, rfl⟩
      rcases List.mem_cons.mp inside with rfl | inside
      · exact ⟨.refl _, reaches_of_mem_ways innerMember, .refl _⟩
      · have nested := ih innerMember inside
        exact nested

end Pattern

variable {frame : Frame}

namespace Spot

/-- The place behind the pair, of which the mark before it is still known. -/
def ofBehind (cursor : Cursor) : Spot := .behind cursor.before.dropLast cursor.after

/-- Reading on behind the pair stays behind it, whatever the pair has inside. -/
theorem ofBehind_of_reaches {text after : List Char}
    (outside : (behind text after).IsOutside frame) {cursor : Cursor}
    (reaches : (Cursor.mk (text ++ ['"']) after).Reaches cursor) :
    (ofBehind cursor).IsOutside frame ∧ ∀ inside,
      cursor.onto (inside.reverse ++ '"' :: frame.before) =
        (ofBehind cursor).cursor frame inside := by
  rcases cursor with ⟨before', after'⟩
  rcases reaches with ⟨more, afterEq, beforeEq⟩
  simp only at afterEq beforeEq
  subst beforeEq
  have shorter : (more.reverse ++ (text ++ ['"'])).dropLast = more.reverse ++ text := by
    rw [← List.append_assoc, List.dropLast_concat]
  simp only [IsOutside] at outside
  refine ⟨?_, ?_⟩
  · simp only [ofBehind, IsOutside, shorter, outside, afterEq, List.reverse_append,
      List.reverse_reverse, List.append_assoc]
  · intro inside
    simp [ofBehind, cursor, shorter, Cursor.onto, enclosed]

end Spot

namespace Spot

/-- A place is before the pair if more than the text behind the pair follows it. -/
theorem isAhead_iff {spot : Spot} (outside : spot.IsOutside frame) (inside : List Char) :
    spot.IsAhead ↔ frame.after.length < (spot.cursor frame inside).after.length := by
  cases spot with
  | ahead before text =>
      simp only [IsAhead, cursor, enclosed, List.length_append, List.length_cons, true_iff]
      omega
  | behind text after =>
      simp only [IsOutside] at outside
      simp only [IsAhead, cursor, outside, List.length_append, false_iff]
      omega

/-- Reading on from behind the pair stays behind it. -/
theorem isAhead_of_reaches {start stop : Spot} (startOutside : start.IsOutside frame)
    (stopOutside : stop.IsOutside frame) {inside : List Char}
    (reaches : (start.cursor frame inside).Reaches (stop.cursor frame inside))
    (ahead : stop.IsAhead) : start.IsAhead := by
  rw [isAhead_iff stopOutside inside] at ahead
  rw [isAhead_iff startOutside inside]
  exact Nat.lt_of_lt_of_le ahead reaches.length_le

/-- The text from a place before the pair to a place behind it has the pair in it. -/
theorem exists_textTo_of_crossing {start stop : Spot} (stopOutside : stop.IsOutside frame)
    (startAhead : start.IsAhead) (stopBehind : ¬ stop.IsAhead) :
    ∃ left right, ∀ inside, (start.cursor frame inside).textTo (stop.cursor frame inside) =
      left ++ (enclosed inside ++ right) := by
  cases start with
  | behind => exact absurd startAhead (by simp [IsAhead])
  | ahead before text =>
      cases stop with
      | ahead => exact absurd trivial stopBehind
      | behind back after =>
          refine ⟨text, back.reverse, ?_⟩
          intro inside
          have whole : text ++ (enclosed inside ++ frame.after) =
              (text ++ (enclosed inside ++ back.reverse)) ++ after := by
            simp only [IsOutside] at stopOutside
            simp [stopOutside]
          simp only [Cursor.textTo, cursor]
          rw [whole, List.length_append, Nat.add_sub_cancel, List.take_left]

/-- The text between two places on one side of the pair does not depend on the pair. -/
theorem exists_textTo_of_not_crossing {start stop : Spot} (startOutside : start.IsOutside frame)
    (side : start.IsAhead → stop.IsAhead) :
    ∃ text, ∀ inside, (start.cursor frame inside).textTo (stop.cursor frame inside) = text := by
  cases start with
  | behind back after =>
      cases stop with
      | behind _ after' => exact ⟨after.take (after.length - after'.length), fun _ => rfl⟩
      | ahead before' text' =>
          refine ⟨[], ?_⟩
          intro inside
          simp only [IsOutside] at startOutside
          have shorter : after.length ≤ (text' ++ (enclosed inside ++ frame.after)).length := by
            simp only [startOutside, List.length_append]
            omega
          simp only [Cursor.textTo, cursor, Nat.sub_eq_zero_of_le shorter, List.take_zero]
  | ahead before text =>
      cases stop with
      | behind => exact absurd (side trivial) (by simp [IsAhead])
      | ahead before' text' =>
          refine ⟨text.take (text.length - text'.length), ?_⟩
          intro inside
          have cut : (text ++ (enclosed inside ++ frame.after)).length -
              (text' ++ (enclosed inside ++ frame.after)).length =
                text.length - text'.length := by
            simp only [List.length_append]
            omega
          simp only [Cursor.textTo, cursor]
          rw [cut, List.take_append_of_le_length (Nat.sub_le _ _)]

end Spot

namespace Pattern

/-- From the place, the pattern reads on in the same ways whatever the pair has inside. -/
def ReadsAlike (frame : Frame) (pattern : Pattern) (folding : Bool) (spot : Spot) : Prop :=
  ∃ framed : List FramedWay, (∀ way ∈ framed, way.IsOutside frame) ∧
    ∀ inside, '"' ∉ inside → pattern.ways folding (spot.cursor frame inside) =
      framed.map (FramedWay.way frame inside)

/-- Behind the pair, every pattern reads alike. -/
theorem readsAlike_behind (pattern : Pattern) (folding : Bool) {text after : List Char}
    (outside : (Spot.behind text after).IsOutside frame) :
    ReadsAlike frame pattern folding (.behind text after) := by
  let start : Cursor := ⟨text ++ ['"'], after⟩
  let frameGroup : Group → FramedGroup := fun group =>
    ⟨group.name, .ofBehind group.start, .ofBehind group.stop⟩
  let frameWay : Way → FramedWay := fun way =>
    ⟨.ofBehind way.stop, way.groups.map frameGroup⟩
  refine ⟨(pattern.ways folding start).map frameWay, ?_, ?_⟩
  · intro way member
    rcases List.mem_map.mp member with ⟨own, ownMember, rfl⟩
    refine ⟨(Spot.ofBehind_of_reaches outside (reaches_of_mem_ways ownMember)).1, ?_⟩
    intro framed framedMember
    rcases List.mem_map.mp framedMember with ⟨group, groupMember, rfl⟩
    rcases reaches_of_mem_groups ownMember groupMember with ⟨toStart, toStop, _⟩
    exact ⟨(Spot.ofBehind_of_reaches outside toStart).1,
      (Spot.ofBehind_of_reaches outside (toStart.trans toStop)).1⟩
  · intro inside _
    have here : (Spot.behind text after).cursor frame inside =
        start.onto (inside.reverse ++ '"' :: frame.before) := by
      simp [Spot.cursor, start, Cursor.onto, enclosed]
    rw [here, ways_onto _ _ _ (by simp [start]), List.map_map]
    apply List.map_congr_left
    intro way member
    have stop := (Spot.ofBehind_of_reaches outside (reaches_of_mem_ways member)).2 inside
    have groups : way.groups.map (Group.onto (inside.reverse ++ '"' :: frame.before)) =
        (way.groups.map frameGroup).map (FramedGroup.group frame inside) := by
      rw [List.map_map]
      apply List.map_congr_left
      intro group groupMember
      rcases reaches_of_mem_groups member groupMember with ⟨toStart, toStop, _⟩
      have groupStart := (Spot.ofBehind_of_reaches outside toStart).2 inside
      have groupStop := (Spot.ofBehind_of_reaches outside (toStart.trans toStop)).2 inside
      simp only [Group.onto, Function.comp_apply, FramedGroup.group, frameGroup, groupStart,
        groupStop]
    simp only [Way.onto, Function.comp_apply, FramedWay.way, frameWay, stop, groups]

/-- A pattern reads alike if it reaches the same places and captures nothing. -/
theorem readsAlike_of_spots {pattern : Pattern} {folding : Bool} {spot : Spot} (spots : List Spot)
    (outside : ∀ stop ∈ spots, stop.IsOutside frame)
    (reads : ∀ inside, '"' ∉ inside → pattern.ways folding (spot.cursor frame inside) =
      (spots.map (Spot.cursor frame inside)).map (⟨·, []⟩)) :
    ReadsAlike frame pattern folding spot := by
  refine ⟨spots.map (⟨·, []⟩), ?_, ?_⟩
  · intro way member
    rcases List.mem_map.mp member with ⟨stop, stopMember, rfl⟩
    refine ⟨outside stop stopMember, ?_⟩
    intro group impossible
    cases impossible
  · intro inside plain
    rw [reads inside plain, List.map_map, List.map_map]
    rfl

/-- A pattern that asks something of the place, and the answer does not depend on the pair. -/
theorem readsAlike_of_test {pattern : Pattern} {folding : Bool} {spot : Spot}
    (outside : spot.IsOutside frame) (test : Bool)
    (reads : ∀ inside, pattern.ways folding (spot.cursor frame inside) =
      if test then [⟨spot.cursor frame inside, []⟩] else []) :
    ReadsAlike frame pattern folding spot := by
  refine readsAlike_of_spots (if test then [spot] else []) ?_ ?_
  · intro stop member
    split at member
    · rw [List.mem_singleton.mp member]
      exact outside
    · cases member
  · intro inside _
    rw [reads inside]
    split <;> rfl

theorem ReadsAlike.orElse {first second : Pattern} {folding : Bool} {spot : Spot}
    (left : ReadsAlike frame first folding spot) (right : ReadsAlike frame second folding spot) :
    ReadsAlike frame (.orElse first second) folding spot := by
  rcases left with ⟨leftFramed, leftOutside, leftReads⟩
  rcases right with ⟨rightFramed, rightOutside, rightReads⟩
  refine ⟨leftFramed ++ rightFramed, ?_, ?_⟩
  · intro way member
    exact (List.mem_append.mp member).elim (leftOutside way) (rightOutside way)
  · intro inside plain
    rw [ways, leftReads inside plain, rightReads inside plain, List.map_append]

theorem ReadsAlike.andThen {first second : Pattern} {folding : Bool} {spot : Spot}
    (left : ReadsAlike frame first folding spot)
    (right : ∀ stop, stop.IsOutside frame → ReadsAlike frame second folding stop) :
    ReadsAlike frame (.andThen first second) folding spot := by
  rcases left with ⟨framed, outside, reads⟩
  -- the ways of the second pattern, one list for each way of the first
  have onwards : ∃ next : List FramedWay, (∀ way ∈ next, way.IsOutside frame) ∧
      ∀ inside, '"' ∉ inside → ((framed.map (FramedWay.way frame inside)).flatMap fun way =>
        (second.ways folding way.stop).map way.andThen) =
          next.map (FramedWay.way frame inside) := by
    clear reads
    induction framed with
    | nil => exact ⟨[], by simp, by simp⟩
    | cons head rest ih =>
        rcases ih (fun way member => outside way (List.mem_cons_of_mem _ member)) with
          ⟨next, nextOutside, nextReads⟩
        have headOutside := outside head (by simp)
        rcases right head.stop headOutside.1 with ⟨tails, tailsOutside, tailsRead⟩
        refine ⟨tails.map (fun tail => ⟨tail.stop, head.groups ++ tail.groups⟩) ++ next, ?_, ?_⟩
        · intro way member
          rcases List.mem_append.mp member with member | member
          · rcases List.mem_map.mp member with ⟨tail, tailMember, rfl⟩
            have tailOutside := tailsOutside tail tailMember
            refine ⟨tailOutside.1, ?_⟩
            intro group groupMember
            rcases List.mem_append.mp groupMember with groupMember | groupMember
            · exact headOutside.2 group groupMember
            · exact tailOutside.2 group groupMember
          · exact nextOutside way member
        · intro inside plain
          have own : (head.way frame inside).stop = head.stop.cursor frame inside := rfl
          rw [List.map_cons, List.flatMap_cons, nextReads inside plain, own,
            tailsRead inside plain, List.map_append, List.map_map, List.map_map]
          congr 1
          apply List.map_congr_left
          intro tail _
          simp [Way.andThen, FramedWay.way]
  rcases onwards with ⟨next, nextOutside, nextReads⟩
  refine ⟨next, nextOutside, ?_⟩
  intro inside plain
  rw [ways, reads inside plain, nextReads inside plain]

theorem ReadsAlike.captured {name : String} {body : Pattern} {folding : Bool} {spot : Spot}
    (here : spot.IsOutside frame) (inner : ReadsAlike frame body folding spot) :
    ReadsAlike frame (.captured name body) folding spot := by
  rcases inner with ⟨framed, outside, reads⟩
  refine ⟨framed.map fun way => ⟨way.stop, ⟨name, spot, way.stop⟩ :: way.groups⟩, ?_, ?_⟩
  · intro way member
    rcases List.mem_map.mp member with ⟨own, ownMember, rfl⟩
    have ownOutside := outside own ownMember
    refine ⟨ownOutside.1, ?_⟩
    intro group groupMember
    rcases List.mem_cons.mp groupMember with rfl | groupMember
    · exact ⟨here, ownOutside.1⟩
    · exact ownOutside.2 group groupMember
  · intro inside plain
    rw [ways, reads inside plain, List.map_map, List.map_map]
    rfl

end Pattern

end SearchCommands
