import SearchCommands.Proofs.Grammar.Frames
import SearchCommands.Proofs.Grammar.Layout
import SearchCommands.Proofs.Text.Parts

/-!
# What captures cover

A capture covers a stretch of the input.  If no part of the input reaches over an end of a capture,
the part is covered as a whole or not at all.  The leftover joins what stood on both sides of a
capture, so it has the parts that no capture covers only if no part reaches over the joint either:
`Token.Spares` says so for every token of a scan, and `Token.Spares.texts_uncovered` concludes it
for the whole leftover.
-/

namespace SearchCommands

open Text

namespace Capture

/-- The part stands inside the capture. -/
def covers (capture : Capture) (part : Placed) : Bool :=
  decide (capture.start ≤ part.start ∧ part.stop ≤ capture.stop)

/-- The part has nothing in common with the capture. -/
def IsApart (capture : Capture) (part : Placed) : Prop :=
  part.stop ≤ capture.start ∨ capture.stop ≤ part.start

/-- The capture covers one stretch of the text, between what stands before it and behind it. -/
structure Divides (capture : Capture) (text left own right : List Char) : Prop where
  text_eq : text = left ++ (own ++ right)
  start_eq : capture.start = byteLength left
  stop_eq : capture.stop = byteLength left + byteLength own

variable {capture : Capture} {part : Placed} {kind : PartKind} {text left own right : List Char}

theorem covers_iff : capture.covers part = true ↔
    capture.start ≤ part.start ∧ part.stop ≤ capture.stop := by
  rw [covers, decide_eq_true_iff]

/-- A part that has nothing in common with a capture is not covered by it. -/
theorem IsApart.not_covers (apart : capture.IsApart part) (nonempty : part.text ≠ []) :
    capture.covers part = false := by
  have length := byteLength_pos nonempty
  rw [← Bool.not_eq_true, covers_iff]
  rintro ⟨start, stop⟩
  simp only [IsApart, Placed.stop] at apart stop
  omega

/-- The parts of a text are those before the capture, those inside it and those behind it. -/
theorem Divides.parts_eq (divides : capture.Divides text left own right)
    (ahead : kind.Separates left (own ++ right)) (behind : kind.Separates own right) :
    kind.parts text = kind.partsFrom 0 left ++
      (kind.partsFrom capture.start own ++ kind.partsFrom capture.stop right) := by
  rw [PartKind.parts, divides.text_eq, ahead, behind, divides.start_eq, divides.stop_eq,
    Nat.zero_add]

/-- The parts of a text that a capture covers are the parts of what it covers. -/
theorem Divides.filter_covers (divides : capture.Divides text left own right)
    (ahead : kind.Separates left (own ++ right)) (behind : kind.Separates own right) :
    (kind.parts text).filter capture.covers = kind.partsFrom capture.start own := by
  rw [divides.parts_eq ahead behind, List.filter_append, List.filter_append]
  have outer : (kind.partsFrom 0 left).filter capture.covers = [] := by
    apply List.filter_eq_nil_iff.mpr
    intro part member
    rcases PartKind.mem_partsFrom member with ⟨_, nonempty, stop⟩
    have apart : capture.IsApart part := Or.inl (by rw [divides.start_eq]; omega)
    simp [apart.not_covers nonempty]
  have inner : (kind.partsFrom capture.start own).filter capture.covers =
      kind.partsFrom capture.start own := by
    apply List.filter_eq_self.mpr
    intro part member
    rcases PartKind.mem_partsFrom member with ⟨start, _, stop⟩
    rw [covers_iff, divides.stop_eq, ← divides.start_eq]
    exact ⟨start, stop⟩
  have later : (kind.partsFrom capture.stop right).filter capture.covers = [] := by
    apply List.filter_eq_nil_iff.mpr
    intro part member
    rcases PartKind.mem_partsFrom member with ⟨start, nonempty, _⟩
    have apart : capture.IsApart part := Or.inr start
    simp [apart.not_covers nonempty]
  rw [outer, inner, later, List.nil_append, List.append_nil]

/-- No part of a text reaches over an end of a capture. -/
theorem Divides.covers_or_isApart (divides : capture.Divides text left own right)
    (ahead : kind.Separates left (own ++ right)) (behind : kind.Separates own right)
    (member : part ∈ kind.parts text) : capture.covers part = true ∨ capture.IsApart part := by
  rw [divides.parts_eq ahead behind, List.mem_append, List.mem_append] at member
  rcases member with member | member | member
  · rcases PartKind.mem_partsFrom member with ⟨_, _, stop⟩
    exact Or.inr (Or.inl (by rw [divides.start_eq]; omega))
  · rcases PartKind.mem_partsFrom member with ⟨start, _, stop⟩
    rw [covers_iff, divides.stop_eq, ← divides.start_eq]
    exact Or.inl ⟨start, stop⟩
  · rcases PartKind.mem_partsFrom member with ⟨start, _, _⟩
    exact Or.inr (Or.inr start)

end Capture

namespace Captures

/-- Whether one of the captures covers the part. -/
def cover (captures : Captures) (part : Placed) : Bool :=
  captures.any fun capture => capture.covers part

/-- The parts that no capture covers. -/
def uncovered (captures : Captures) (parts : List Placed) : List Placed :=
  parts.filter fun part => !captures.cover part

variable {capture : Capture} {captures : Captures} {part : Placed}

theorem uncovered_append (captures : Captures) (left right : List Placed) :
    captures.uncovered (left ++ right) = captures.uncovered left ++ captures.uncovered right :=
  List.filter_append left right

theorem cover_eq_false (apart : ∀ capture ∈ captures, capture.IsApart part)
    (nonempty : part.text ≠ []) : captures.cover part = false := by
  rw [cover, List.any_eq_false]
  intro capture member
  simp [(apart capture member).not_covers nonempty]

/-- Of captures that follow each other, only one covers a part. -/
theorem isApart_of_covers {before after : Captures}
    (ordered : (before ++ capture :: after).Pairwise fun first second => first.stop ≤ second.start)
    (covers : capture.covers part = true) :
    ∀ other ∈ before ++ after, other.IsApart part := by
  rw [Capture.covers_iff] at covers
  rw [List.pairwise_append, List.pairwise_cons] at ordered
  intro other member
  rcases List.mem_append.mp member with member | member
  · have order := ordered.2.2 other member capture List.mem_cons_self
    exact Or.inr (Nat.le_trans order covers.1)
  · have order := ordered.2.1.1 other member
    exact Or.inl (Nat.le_trans covers.2 order)

end Captures

namespace Cursor

variable {start stop : Cursor}

theorem Reaches.before_eq (reaches : start.Reaches stop) :
    stop.before = (start.textTo stop).reverse ++ start.before := by
  rcases reaches with ⟨text, afterEq, beforeEq⟩
  rw [textTo_eq afterEq, beforeEq]

theorem Reaches.offset_eq (reaches : start.Reaches stop) :
    stop.offset = start.offset + byteLength (start.textTo stop) := by
  rw [offset, offset, reaches.before_eq, byteLength_append, byteLength_reverse, Nat.add_comm]

theorem Reaches.offset_le (reaches : start.Reaches stop) : start.offset ≤ stop.offset := by
  rw [reaches.offset_eq]
  exact Nat.le_add_right _ _

end Cursor

namespace Field.OccursAt

variable {field : Field} {start stop : Cursor} {value : FieldValue}

/-- An occurrence covers blanks and a word, and it ends where a word ends. -/
theorem exists_covered (occurs : field.OccursAt start stop value) :
    ∃ blanks word, start.textTo stop = blanks ++ word ∧ AllBlank blanks ∧ field.Spells word value ∧
      (start.before = [] ∨ blanks ≠ []) ∧ EndsWord stop.after := by
  rcases occurs with ⟨blanks, word, rest, split, blank, spells, ends, place, rfl⟩
  refine ⟨blanks, word, ?_, blank, spells, place.imp_right And.right, ends⟩
  apply Cursor.textTo_eq
  rw [split, List.append_assoc]

theorem textTo_ne_nil (occurs : field.OccursAt start stop value) (proper : field.IsProper) :
    start.textTo stop ≠ [] := by
  rcases occurs.exists_covered with ⟨blanks, word, covered, _, spells, _, _⟩
  rw [covered]
  exact List.append_ne_nil_of_right_ne_nil blanks (spells.ne_nil proper)

end Field.OccursAt

namespace Grammar.Scans

variable {grammar : Grammar} {cursor : Cursor} {token : Token} {tokens : List Token}

/-- A scan passes over what stands before its first token and goes on behind it. -/
theorem first (scans : grammar.Scans cursor (token :: tokens)) :
    cursor.Reaches token.start ∧ token.start.insideQuotes = false ∧
      grammar.tokenAt? token.start = some token ∧ grammar.Scans token.stop tokens := by
  generalize shape : token :: tokens = all at scans
  induction scans with
  | done => cases shape
  | pass _ _ ih =>
      rcases ih shape with ⟨toStart, more⟩
      exact ⟨(Cursor.Reaches.step _ _ _).trans toStart, more⟩
  | take found outside rest =>
      cases shape
      rcases tokenAt?_eq_some found with ⟨_, _, _, start, _⟩
      rw [start]
      exact ⟨.refl _, outside, found, rest⟩

/-- The scan goes through a token from its start. -/
theorem through (scans : grammar.Scans cursor (token :: tokens)) :
    token.start.Reaches token.stop := by
  rcases scans.first with ⟨_, _, found, _⟩
  rcases tokenAt?_eq_some found with ⟨_, _, _, _, occurs⟩
  exact reaches_of_occursAt occurs

/-- A scan goes forward to every token, and through it. -/
theorem reaches (scans : grammar.Scans cursor tokens) (member : token ∈ tokens) :
    cursor.Reaches token.start ∧ token.start.Reaches token.stop := by
  induction tokens generalizing cursor with
  | nil => cases member
  | cons head rest ih =>
      rcases scans.first with ⟨toStart, _, _, more⟩
      rcases List.mem_cons.mp member with rfl | member
      · exact ⟨toStart, scans.through⟩
      · rcases ih more member with ⟨toLater, through⟩
        exact ⟨(toStart.trans scans.through).trans toLater, through⟩

/-- Each token of a scan starts where the one before it stops, or later. -/
theorem captures_pairwise (scans : grammar.Scans cursor tokens) :
    (tokens.map Token.capture).Pairwise fun first second => first.stop ≤ second.start := by
  induction tokens generalizing cursor with
  | nil => exact List.Pairwise.nil
  | cons token rest ih =>
      rcases scans.first with ⟨_, _, _, more⟩
      rw [List.map_cons, List.pairwise_cons]
      refine ⟨?_, ih more⟩
      intro other member
      rcases List.mem_map.mp member with ⟨later, laterMember, rfl⟩
      exact (more.reaches laterMember).1.offset_le

/-- What no token covers stands in the text, in the same order. -/
theorem sublist_uncovered (scans : grammar.Scans cursor tokens) :
    (Token.uncovered cursor tokens).Sublist cursor.after := by
  induction tokens generalizing cursor with
  | nil => exact List.Sublist.refl _
  | cons token rest ih =>
      rcases scans.first with ⟨toStart, _, _, more⟩
      rw [Token.uncovered, toStart.after_eq, scans.through.after_eq]
      exact (List.Sublist.refl _).append ((ih more).trans (List.sublist_append_right _ _))

end Grammar.Scans

namespace Grammar

variable {grammar : Grammar} {input : String} {capture : Capture}

/-- A token of a scan divides the input. -/
theorem divides_of_mem_tokens {token : Token} (member : token ∈ grammar.tokens input) :
    token.capture.Divides input.toList token.start.before.reverse (token.start.textTo token.stop)
      token.stop.after := by
  rcases (grammar.scans_tokens input).reaches member with ⟨toStart, through⟩
  have before : token.start.before.reverse =
      (Cursor.ofText input.toList).textTo token.start := by
    rw [toStart.before_eq, Cursor.ofText, List.append_nil, List.reverse_reverse]
  refine ⟨?_, ?_, ?_⟩
  · rw [← through.after_eq, before]
    exact toStart.after_eq
  · rw [byteLength_reverse]
    rfl
  · rw [byteLength_reverse]
    exact through.offset_eq

/-- A capture is a token of the scan, at its place in the input. -/
theorem exists_token_of_mem_captures (member : capture ∈ grammar.captures input) :
    ∃ token : Token, token.capture = capture ∧ token.start.insideQuotes = false ∧
      (∃ field ∈ grammar.fields, capture.field = field.name ∧
        field.OccursAt token.start token.stop token.value) ∧
      capture.Divides input.toList token.start.before.reverse (token.start.textTo token.stop)
        token.stop.after := by
  rcases List.mem_map.mp member with ⟨token, tokenMember, same⟩
  rcases (grammar.scans_tokens input).occursAt tokenMember with
    ⟨field, fieldMember, name, occurs, outside⟩
  exact ⟨token, same, outside, ⟨field, fieldMember, same ▸ name, occurs⟩,
    same ▸ divides_of_mem_tokens tokenMember⟩

theorem captures_pairwise (grammar : Grammar) (input : String) :
    (grammar.captures input).Pairwise fun first second => first.stop ≤ second.start :=
  (grammar.scans_tokens input).captures_pairwise

/-- A capture covers some of the input. -/
theorem start_lt_stop (captured : capture ∈ grammar.captures input) :
    capture.start < capture.stop := by
  rcases exists_token_of_mem_captures captured with ⟨token, _, _, ⟨_, member, _, occurs⟩, divides⟩
  have covered := byteLength_pos (occurs.textTo_ne_nil (isProper member))
  rw [divides.start_eq, divides.stop_eq]
  exact Nat.lt_add_of_pos_right covered

/-- A positional field reads the start of the input. -/
theorem start_eq_zero_of_isPositional {field : Field} (member : field ∈ grammar.fields)
    (positional : field.isPositional = true) (captured : capture ∈ grammar.captures input)
    (own : capture.field = field.name) : capture.start = 0 := by
  rcases exists_token_of_mem_captures captured with
    ⟨token, _, _, ⟨other, otherMember, otherName, occurs⟩, divides⟩
  have same : other = field := field_eq_of_name otherMember member (otherName.symm.trans own)
  subst same
  have first : token.start.before = [] := by
    rcases occurs with ⟨_, _, _, _, _, _, _, first | ⟨aliased, _⟩, _⟩
    · exact first
    · rw [positional] at aliased
      cases aliased
  rw [divides.start_eq, first]
  rfl

/-- Only the first capture can be at the start of the input. -/
theorem exists_captures_eq_cons (captured : capture ∈ grammar.captures input)
    (first : capture.start = 0) :
    ∃ later, grammar.captures input = capture :: later ∧ ∀ other ∈ later, 0 < other.start := by
  have ordered := grammar.captures_pairwise input
  have some := start_lt_stop captured
  rcases List.append_of_mem captured with ⟨earlier, later, split⟩
  rw [split, List.pairwise_append, List.pairwise_cons] at ordered
  have behind : ∀ other ∈ later, 0 < other.start := by
    intro other member
    have order := ordered.2.1.1 other member
    omega
  cases earlier with
  | nil => exact ⟨later, split, behind⟩
  | cons other rest =>
      have inside : other ∈ grammar.captures input := by simp [split]
      have nonempty := start_lt_stop inside
      have order := ordered.2.2 other List.mem_cons_self capture List.mem_cons_self
      omega

/-- At most one capture is at the start of the input. -/
theorem countP_le_one {own : Capture → Bool}
    (atStart : ∀ capture ∈ grammar.captures input, own capture = true → capture.start = 0) :
    (grammar.captures input).countP own ≤ 1 := by
  by_cases any : ∃ capture ∈ grammar.captures input, own capture = true
  · rcases any with ⟨capture, captured, isOwn⟩
    rcases exists_captures_eq_cons captured (atStart capture captured isOwn) with
      ⟨later, split, behind⟩
    have noOther : later.countP own = 0 := by
      apply List.countP_eq_zero.mpr
      intro other member isOwn
      have first := atStart other (by simp [split, member]) isOwn
      have start := behind other member
      omega
    rw [split, List.countP_cons_of_pos isOwn, noOther]
  · have none : (grammar.captures input).countP own = 0 :=
      List.countP_eq_zero.mpr fun capture captured isOwn => any ⟨capture, captured, isOwn⟩
    rw [none]
    exact Nat.zero_le 1

/-- A positional field starts the input, so it is captured at most once. -/
theorem countOf_le_one_of_isPositional {field : Field} (member : field ∈ grammar.fields)
    (positional : field.isPositional = true) (input : String) :
    (grammar.captures input).countOf field.name ≤ 1 :=
  countP_le_one fun _ captured own =>
    start_eq_zero_of_isPositional member positional captured (beq_iff_eq.mp own)

end Grammar

namespace Token

variable {kind : PartKind} {cursor : Cursor} {tokens : List Token}

/-- No part reaches into a token or out of it, and none arises where its two sides meet once it is
taken out. -/
inductive Spares (kind : PartKind) : Cursor → List Token → Prop where
  | done (cursor : Cursor) : Spares kind cursor []
  | next {cursor : Cursor} {token : Token} {rest : List Token}
      (toStart : cursor.Reaches token.start) (through : token.start.Reaches token.stop)
      (ahead : kind.Separates (cursor.textTo token.start) token.start.after)
      (behind : kind.Separates (token.start.textTo token.stop) token.stop.after)
      (joint : kind.Separates (cursor.textTo token.start) (uncovered token.stop rest))
      (more : Spares kind token.stop rest) : Spares kind cursor (token :: rest)

theorem Spares.start_le (spares : Spares kind cursor tokens) :
    ∀ token ∈ tokens, cursor.offset ≤ token.capture.start := by
  induction spares with
  | done cursor =>
      intro token member
      cases member
  | next toStart through _ _ _ _ ih =>
      intro token member
      have first := toStart.offset_le
      rcases List.mem_cons.mp member with rfl | member
      · exact first
      · exact (first.trans through.offset_le).trans (ih token member)

/-- The parts that end before the first token starts are uncovered. -/
theorem uncovered_ahead {token : Token} {rest : List Token}
    (toStart : cursor.Reaches token.start) (through : token.start.Reaches token.stop)
    (more : Spares kind token.stop rest) :
    Captures.uncovered ((token :: rest).map capture)
        (kind.partsFrom cursor.offset (cursor.textTo token.start)) =
      kind.partsFrom cursor.offset (cursor.textTo token.start) := by
  apply List.filter_eq_self.mpr
  intro part member
  rcases PartKind.mem_partsFrom member with ⟨_, nonempty, stop⟩
  rw [← toStart.offset_eq] at stop
  rw [Bool.not_eq_true', Captures.cover_eq_false _ nonempty]
  intro other otherMember
  rcases List.mem_map.mp otherMember with ⟨later, laterMember, rfl⟩
  apply Or.inl
  rcases List.mem_cons.mp laterMember with rfl | laterMember
  · exact stop
  · exact (stop.trans through.offset_le).trans (more.start_le later laterMember)

/-- The parts inside a token are covered by it. -/
theorem uncovered_inside {token : Token} {rest : List Token}
    (through : token.start.Reaches token.stop) :
    Captures.uncovered ((token :: rest).map capture)
      (kind.partsFrom token.start.offset (token.start.textTo token.stop)) = [] := by
  apply List.filter_eq_nil_iff.mpr
  intro part member
  rcases PartKind.mem_partsFrom member with ⟨start, _, stop⟩
  rw [← through.offset_eq] at stop
  have covers : token.capture.covers part = true := Capture.covers_iff.mpr ⟨start, stop⟩
  simp [Captures.cover, covers]

/-- The first token covers no part behind it. -/
theorem uncovered_behind (token : Token) (rest : List Token) :
    Captures.uncovered ((token :: rest).map capture)
        (kind.partsFrom token.stop.offset token.stop.after) =
      Captures.uncovered (rest.map capture)
        (kind.partsFrom token.stop.offset token.stop.after) := by
  apply List.filter_congr
  intro part member
  rcases PartKind.mem_partsFrom member with ⟨start, nonempty, _⟩
  have apart : token.capture.IsApart part := Or.inr start
  rw [Captures.cover, Captures.cover, List.map_cons, List.any_cons,
    apart.not_covers nonempty, Bool.false_or]

/-- The leftover has the parts that no token covers, in their order. -/
theorem Spares.texts_uncovered (spares : Spares kind cursor tokens) :
    (Captures.uncovered (tokens.map capture) (kind.partsFrom cursor.offset cursor.after)).map
        Placed.text = (kind.parts (uncovered cursor tokens)).map Placed.text := by
  induction spares with
  | done cursor =>
      have all : Captures.uncovered [] (kind.partsFrom cursor.offset cursor.after) =
          kind.partsFrom cursor.offset cursor.after := by
        simp [Captures.uncovered, Captures.cover]
      rw [List.map_nil, all]
      exact PartKind.texts_partsFrom cursor.after _ _
  | @next cursor token rest toStart through ahead behind joint more ih =>
      have split : kind.partsFrom cursor.offset cursor.after =
          kind.partsFrom cursor.offset (cursor.textTo token.start) ++
            (kind.partsFrom token.start.offset (token.start.textTo token.stop) ++
              kind.partsFrom token.stop.offset token.stop.after) := by
        rw [toStart.after_eq, ahead, through.after_eq, behind, ← toStart.offset_eq,
          ← through.offset_eq]
      have joined : kind.parts (uncovered cursor (token :: rest)) =
          kind.partsFrom 0 (cursor.textTo token.start) ++
            kind.partsFrom (0 + byteLength (cursor.textTo token.start))
              (uncovered token.stop rest) := by
        rw [uncovered, PartKind.parts, joint]
      rw [split, Captures.uncovered_append, Captures.uncovered_append,
        uncovered_ahead toStart through more, uncovered_inside through, uncovered_behind,
        List.nil_append, List.map_append, ih, joined, List.map_append, PartKind.parts]
      congr 1
      · exact PartKind.texts_partsFrom _ _ _
      · exact PartKind.texts_partsFrom _ _ _

end Token

end SearchCommands
