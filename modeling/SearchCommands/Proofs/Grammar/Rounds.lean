import SearchCommands.Proofs.Grammar.Coverage
import SearchCommands.Proofs.Text.Slices

/-!
# The search by rounds

The tokens of an input can be found by a search that knows its place as a number of bytes.  A round
of the search takes the leftmost match from its place on.  It captures the match and goes on where
the capture stops, or the match starts inside quotation marks and the search goes on behind them.

Nothing in this says that the search ends, that its place is never inside a character, or that the
captures can be cut out of the input.  One round always goes forward to a boundary of the text
(`Grammar.round?_cases`), so by induction on what is left of the text the search ends, and it has
taken the tokens of the scan (`Grammar.exists_searches`).
-/

namespace SearchCommands

open Text

/-- The leftmost match that starts at or behind a place, given in bytes. -/
def Pattern.find? (pattern : Pattern) (text : List Char) (offset : Nat) : Option Way :=
  (((Cursor.ofText text).places fun _ => true).filter fun place =>
    offset ≤ place.offset).findSome? pattern.match?

/-- What one round of a search does. -/
structure Round where
  /-- What it captures, if it does not pass over quotation marks. -/
  capture? : Option Capture
  /-- The place from which the next round searches. -/
  next : Nat
  deriving DecidableEq, Repr

namespace Grammar

/-- The round of a search from a place, if the search does not end there.  It ends behind the text,
where nothing matches, and where a match belongs to no field. -/
def round? (grammar : Grammar) (text : List Char) (offset : Nat) : Option Round :=
  if byteLength text < offset then none
  else
    (grammar.pattern.find? text offset).bind fun way =>
      (grammar.occurrence? way).map fun (field, group) =>
        match (quotedTexts text).find? fun pair =>
            pair.start < group.start.offset && group.start.offset < pair.stop with
        | some pair => ⟨none, pair.stop⟩
        | none =>
            ⟨some ⟨field.name, group.start.offset, group.stop.offset, field.valueOf way⟩,
              max group.stop.offset (offset + 1)⟩

/-- The rounds of a search from a place to its end. -/
inductive Searches (grammar : Grammar) (text : List Char) : Nat → List Round → Prop where
  | stop {offset : Nat} (nothing : grammar.round? text offset = none) :
      Searches grammar text offset []
  | go {offset : Nat} {round : Round} {rounds : List Round}
      (found : grammar.round? text offset = some round)
      (more : Searches grammar text round.next rounds) :
      Searches grammar text offset (round :: rounds)

end Grammar

namespace Cursor

/-- Of the places of a text, those that are not before the cursor are those from the cursor on. -/
theorem filter_places (before text after : List Char) :
    (placesOf (fun _ => true) before (text ++ after)).filter
        (fun place => byteLength (text.reverse ++ before) ≤ place.offset) =
      placesOf (fun _ => true) (text.reverse ++ before) after := by
  induction text generalizing before with
  | nil =>
      apply List.filter_eq_self.mpr
      intro place member
      have order := (reaches_of_mem_placesOf member).offset_le
      exact decide_eq_true order
  | cons c text ih =>
      have ahead : ¬ byteLength (text.reverse ++ c :: before) ≤ byteLength before := by
        have size := c.utf8Size_pos
        simp only [byteLength_append, byteLength]
        omega
      have shape : (c :: text).reverse ++ before = text.reverse ++ c :: before := by simp
      rw [shape, ← ih (c :: before), List.cons_append, placesOf, if_pos rfl,
        List.filter_cons_of_neg (by simpa [offset] using ahead)]

/-- Going through all places from the cursor on, one finds nothing or the first result. -/
theorem findSome?_places {α : Type} (found : Cursor → Option α) (cursor : Cursor) :
    (cursor.places fun _ => true).findSome? found = none ∧
        (∀ place, cursor.Reaches place → found place = none) ∨
      ∃ first result, (cursor.places fun _ => true).findSome? found = some result ∧
        cursor.Reaches first ∧ found first = some result ∧
        ∀ place, cursor.Reaches place → place.offset < first.offset → found place = none := by
  rcases cursor with ⟨before, after⟩
  induction after generalizing before with
  | nil =>
      have only {place : Cursor} (reaches : Reaches ⟨before, []⟩ place) : place = ⟨before, []⟩ := by
        rcases place with ⟨_, _⟩
        rcases reaches with ⟨text, afterEq, beforeEq⟩
        simp_all
      cases here : found ⟨before, []⟩ with
      | none =>
          left
          refine ⟨by simp [places, placesOf, here], ?_⟩
          exact fun place reaches => only reaches ▸ here
      | some result =>
          right
          refine ⟨⟨before, []⟩, result, by simp [places, placesOf, here], .refl _, here, ?_⟩
          intro place reaches earlier
          simp [only reaches] at earlier
  | cons c after ih =>
      cases here : found ⟨before, c :: after⟩ with
      | none =>
          have onwards : (places (fun _ => true) ⟨before, c :: after⟩).findSome? found =
              (places (fun _ => true) ⟨c :: before, after⟩).findSome? found := by
            simp [places, placesOf, here]
          rcases ih (c :: before) with ⟨nothing, nowhere⟩ | ⟨first, result, hit, reaches, own, none⟩
          · left
            refine ⟨onwards.trans nothing, ?_⟩
            intro place toPlace
            rcases toPlace.eq_or_step with rfl | step
            · exact here
            · exact nowhere place step
          · right
            refine ⟨first, result, onwards.trans hit, (Reaches.step _ _ _).trans reaches, own, ?_⟩
            intro place toPlace earlier
            rcases toPlace.eq_or_step with rfl | step
            · exact here
            · exact none place step earlier
      | some result =>
          right
          refine ⟨⟨before, c :: after⟩, result, by simp [places, placesOf, here], .refl _, here, ?_⟩
          intro place reaches earlier
          have order := reaches.offset_le
          omega

namespace Reaches

variable {text : List Char} {cursor : Cursor} (reaches : (ofText text).Reaches cursor)

include reaches

theorem text_eq : text = cursor.before.reverse ++ cursor.after := by
  rcases reaches with ⟨left, split, before⟩
  simpa [before, ofText] using split

theorem isBoundary : IsBoundary text cursor.offset :=
  ⟨cursor.before.reverse, cursor.after, reaches.text_eq, by simp [offset, byteLength_reverse]⟩

/-- The search from a place of the text goes through the places from there on. -/
theorem find?_eq (pattern : Pattern) :
    pattern.find? text cursor.offset =
      (cursor.places fun _ => true).findSome? pattern.match? := by
  have filtered := filter_places [] cursor.before.reverse cursor.after
  simp only [List.reverse_reverse, List.append_nil, ← reaches.text_eq] at filtered
  rw [Pattern.find?, places, ofText, offset, filtered]
  rfl

theorem insideQuotes_iff : cursor.insideQuotes = true ↔
    ∃ pair ∈ quotedTexts text, pair.start < cursor.offset ∧ cursor.offset < pair.stop := by
  rw [reaches.text_eq]
  exact Cursor.insideQuotes_iff

end Reaches

end Cursor

namespace Text.PartKind

variable {kind : PartKind}

/-- A part of a text stands in it, between what is before it and behind it. -/
theorem exists_around {text : List Char} {offset : Nat} {part : Placed}
    (member : part ∈ kind.partsFrom offset text) :
    ∃ left right, text = left ++ (part.text ++ right) ∧ part.start = offset + byteLength left := by
  induction text using kind.partsInduction generalizing offset with
  | nil => simp [partsFrom_nil] at member
  | pass c rest none ih =>
      rw [partsFrom_pass none] at member
      rcases ih member with ⟨left, right, rfl, start⟩
      refine ⟨c :: left, right, rfl, ?_⟩
      simp only [byteLength]
      omega
  | take own rest lead nonempty ih =>
      rw [partsFrom_take lead nonempty] at member
      rcases List.mem_cons.mp member with rfl | member
      · exact ⟨[], rest, rfl, rfl⟩
      · rcases ih member with ⟨left, right, rfl, start⟩
        refine ⟨own ++ left, right, by simp, ?_⟩
        simp only [byteLength_append]
        omega

end Text.PartKind

namespace Grammar

variable {grammar : Grammar} {cursor next : Cursor} {tokens : List Token}

/-- A scan passes over places where nothing stands or which are inside quotation marks. -/
theorem Scans.of_passed (reaches : cursor.Reaches next)
    (passed : ∀ place, cursor.Reaches place → place.offset < next.offset →
      grammar.tokenAt? place = none ∨ place.insideQuotes = true)
    (rest : grammar.Scans next tokens) : grammar.Scans cursor tokens := by
  rcases cursor with ⟨before, after⟩
  rcases next with ⟨nextBefore, nextAfter⟩
  rcases reaches with ⟨text, afterEq, beforeEq⟩
  simp only at afterEq beforeEq
  subst afterEq beforeEq
  induction text generalizing before with
  | nil => exact rest
  | cons c text ih =>
      have shape : (c :: text).reverse ++ before = text.reverse ++ c :: before := by simp
      rw [shape] at rest passed
      apply Scans.pass
      · apply passed _ (.refl _)
        have size := c.utf8Size_pos
        simp only [Cursor.offset, byteLength_append, byteLength]
        omega
      · apply ih (c :: before) rest
        intro place onwards earlier
        exact passed place ((Cursor.Reaches.step _ _ _).trans onwards) earlier

theorem Scans.of_nothing (nothing : ∀ place, cursor.Reaches place → grammar.tokenAt? place = none) :
    grammar.Scans cursor [] := by
  rcases cursor with ⟨before, after⟩
  have toEnd : Cursor.Reaches ⟨before, after⟩ ⟨after.reverse ++ before, []⟩ := ⟨after, by simp⟩
  apply Scans.of_passed toEnd
  · exact fun place reaches _ => Or.inl (nothing place reaches)
  · exact .done _

/-- The search goes from one place forward to another, past at most one token that it takes. -/
structure Advances (grammar : Grammar) (cursor next : Cursor) (taken : Option Token) : Prop where
  reaches : cursor.Reaches next
  forward : cursor.offset < next.offset
  stop : ∀ token ∈ taken, token.stop = next
  scans : ∀ tokens, grammar.Scans next tokens → grammar.Scans cursor (taken.toList ++ tokens)

/-- A match of a grammar that has fields is a token. -/
theorem exists_token_of_match? (any : ∃ field, field ∈ grammar.fields) {way : Way}
    (preferred : grammar.pattern.match? cursor = some way) :
    ∃ field ∈ grammar.fields, ∃ stop,
      grammar.occurrence? way = some (field, ⟨field.name, cursor, stop⟩) ∧
      grammar.tokenAt? cursor = some ⟨field.name, cursor, stop, field.valueOf way⟩ ∧
      field.OccursAt cursor stop (field.valueOf way) := by
  rcases (mem_ways_pattern any).mp (List.mem_of_mem_head? preferred) with ⟨field, member, wayMember⟩
  rcases Field.occursAt_of_mem_ways (isProper member) wayMember with
    ⟨stop, parts, groups, partNames, occurs⟩
  have found := occurrence?_eq member groups partNames
  exact ⟨field, member, stop, found, by simp [tokenAt?, preferred, found], occurs⟩

section Rounds

variable {text : List Char} {first : Cursor} (reaches : (Cursor.ofText text).Reaches cursor)
  (toFirst : cursor.Reaches first)
  (passed : ∀ place, cursor.Reaches place → place.offset < first.offset →
    grammar.tokenAt? place = none)

include toFirst passed

/-- Behind quotation marks the search has only passed over places where it takes nothing. -/
theorem exists_advances_past (reaches : (Cursor.ofText text).Reaches cursor) {pair : Placed}
    (member : pair ∈ quotedTexts text) (opened : pair.start < first.offset)
    (closed : first.offset < pair.stop) :
    ∃ next, next.offset = pair.stop ∧ grammar.Advances cursor next none := by
  rcases PartKind.exists_around member with ⟨left, right, split, start⟩
  let next : Cursor := ⟨(left ++ pair.text).reverse, right⟩
  have nextOffset : next.offset = pair.stop := by
    simp only [next, Cursor.offset, byteLength_reverse, byteLength_append, Placed.stop, start]
    omega
  have toNext : (Cursor.ofText text).Reaches next :=
    ⟨left ++ pair.text, by simp [next, split, Cursor.ofText], by simp [next, Cursor.ofText]⟩
  have order := toFirst.offset_le
  have onwards : cursor.Reaches next := by
    rcases reaches.reaches_or_lt toNext with onwards | behind
    · exact onwards
    · omega
  refine ⟨next, nextOffset, onwards, by omega, by simp, ?_⟩
  intro tokens rest
  apply Scans.of_passed onwards _ rest
  intro place toPlace before
  by_cases ahead : place.offset < first.offset
  · exact Or.inl (passed place toPlace ahead)
  · right
    apply (reaches.trans toPlace).insideQuotes_iff.mpr
    exact ⟨pair, member, by omega, by omega⟩

theorem advances_take {token : Token} (found : grammar.tokenAt? first = some token)
    (outside : first.insideQuotes = false) : grammar.Advances cursor token.stop (some token) := by
  rcases tokenAt?_eq_some found with ⟨field, member, _, _, occurs⟩
  have through := reaches_of_occursAt occurs
  have size := byteLength_pos (occurs.textTo_ne_nil (isProper member))
  have covered := through.offset_eq
  have order := toFirst.offset_le
  refine ⟨toFirst.trans through, by omega, by simp, ?_⟩
  intro tokens rest
  apply Scans.of_passed toFirst
  · exact fun place toPlace before => Or.inl (passed place toPlace before)
  · exact .take found outside rest

end Rounds

/-- One round of a search ends it, and nothing is left to take, or it goes forward. -/
theorem round?_cases {text : List Char} (reaches : (Cursor.ofText text).Reaches cursor) :
    grammar.round? text cursor.offset = none ∧ grammar.Scans cursor [] ∨
      ∃ next taken, grammar.round? text cursor.offset =
          some ⟨taken.map Token.capture, next.offset⟩ ∧ grammar.Advances cursor next taken := by
  have inside := reaches.isBoundary.le
  have search := reaches.find?_eq grammar.pattern
  by_cases any : ∃ field, field ∈ grammar.fields
  case neg =>
    left
    have fields : grammar.fields = [] := List.eq_nil_iff_forall_not_mem.mpr (by simpa using any)
    refine ⟨by simp [round?, occurrence?, fields], ?_⟩
    exact Scans.of_nothing fun place _ => tokenAt?_of_no_field (by simpa using any) place
  rcases cursor.findSome?_places grammar.pattern.match? with
    ⟨nothing, nowhere⟩ | ⟨first, way, hit, toFirst, preferred, earlier⟩
  · left
    refine ⟨by simp [round?, search, nothing], ?_⟩
    apply Scans.of_nothing
    intro place toPlace
    simp [tokenAt?, nowhere place toPlace]
  right
  rcases exists_token_of_match? any preferred with ⟨field, _, stop, found, token, _⟩
  have passed (place : Cursor) (toPlace : cursor.Reaches place)
      (before : place.offset < first.offset) : grammar.tokenAt? place = none := by
    simp [tokenAt?, earlier place toPlace before]
  cases hidden : (quotedTexts text).find? fun pair =>
      pair.start < first.offset && first.offset < pair.stop with
  | some pair =>
      have covers := List.find?_some hidden
      simp only [Bool.and_eq_true, decide_eq_true_eq] at covers
      rcases exists_advances_past toFirst passed reaches (List.mem_of_find?_eq_some hidden) covers.1
        covers.2 with ⟨next, nextOffset, advances⟩
      refine ⟨next, none, ?_, advances⟩
      simp [round?, inside, search, hit, found, hidden, nextOffset]
  | none =>
      have outside : first.insideQuotes = false := by
        rw [← Bool.not_eq_true, (reaches.trans toFirst).insideQuotes_iff]
        simpa using hidden
      have advances := advances_take toFirst passed token outside
      have forward := advances.forward
      have next : max stop.offset (cursor.offset + 1) = stop.offset := by
        simp only at forward
        omega
      refine ⟨stop, _, ?_, advances⟩
      simp [round?, inside, search, hit, found, hidden, next, Token.capture]

theorem Advances.length_lt {taken : Option Token} (advances : grammar.Advances cursor next taken) :
    next.after.length < cursor.after.length := by
  have forward := advances.forward
  rcases advances.reaches with ⟨text, afterEq, beforeEq⟩
  cases text with
  | nil => simp [Cursor.offset, beforeEq] at forward
  | cons c text =>
      simp only [afterEq, List.length_append, List.length_cons]
      omega

/-- The rounds of a search from a place go forward, from one boundary of the text to another, and
never leave the text.  A round that captures goes on where the capture stops. -/
structure GoForward (text : List Char) (offset : Nat) (rounds : List Round) : Prop where
  forward : (offset :: rounds.map Round.next).IsChain (· < ·)
  inside : ∀ round ∈ rounds, round.next ≤ byteLength text
  boundary : ∀ round ∈ rounds, IsBoundary text round.next
  stop : ∀ round ∈ rounds, ∀ capture ∈ round.capture?, round.next = capture.stop

/-- From every place of a text the search ends, and it takes the tokens that a scan takes. -/
theorem exists_searches {text : List Char} (reaches : (Cursor.ofText text).Reaches cursor) :
    ∃ rounds tokens, grammar.Searches text cursor.offset rounds ∧ grammar.Scans cursor tokens ∧
      rounds.filterMap Round.capture? = tokens.map Token.capture ∧
      GoForward text cursor.offset rounds := by
  -- a round advances the place, so less of the text is left for the rounds behind it
  generalize size : cursor.after.length = length
  induction length using Nat.strongRecOn generalizing cursor with
  | _ length ih =>
      rcases grammar.round?_cases reaches with ⟨nothing, scans⟩ | ⟨next, taken, found, advances⟩
      · exact ⟨[], [], .stop nothing, scans, rfl, by simp, by simp, by simp, by simp⟩
      have toNext := reaches.trans advances.reaches
      rcases ih _ (size ▸ advances.length_lt) toNext rfl with
        ⟨rounds, tokens, searches, scans, captured, goForward⟩
      refine ⟨_, _, .go found searches, advances.scans tokens scans, ?_, ?_, ?_, ?_, ?_⟩
      · cases taken with
        | none => simpa using captured
        | some token => simpa using captured
      · exact List.isChain_cons_cons.mpr ⟨advances.forward, goForward.forward⟩
      · exact List.forall_mem_cons.mpr ⟨toNext.isBoundary.le, goForward.inside⟩
      · exact List.forall_mem_cons.mpr ⟨toNext.isBoundary, goForward.boundary⟩
      · refine List.forall_mem_cons.mpr ⟨?_, goForward.stop⟩
        intro capture taking
        rcases Option.mem_map.mp taking with ⟨token, member, rfl⟩
        simp [Token.capture, advances.stop token member]

/-- A search from one place has one list of rounds. -/
theorem Searches.unique {text : List Char} {offset : Nat} {rounds rounds' : List Round}
    (searches : grammar.Searches text offset rounds)
    (searches' : grammar.Searches text offset rounds') : rounds = rounds' := by
  induction searches generalizing rounds' with
  | stop nothing =>
      cases searches' with
      | stop => rfl
      | go found => simp [nothing] at found
  | go found _ ih =>
      cases searches' with
      | stop nothing => simp [nothing] at found
      | go found' more' =>
          rw [found, Option.some.injEq] at found'
          subst found'
          rw [ih more']

end Grammar

namespace Captures

/-- The captures follow each other and can be cut out of a text: none of them is empty, and they
start and stop at boundaries of the text. -/
structure AreSpans (captures : Captures) (text : List Char) : Prop where
  nonempty : ∀ capture ∈ captures, capture.start < capture.stop
  ordered : captures.Pairwise fun first second => first.stop ≤ second.start
  inside : ∀ capture ∈ captures, capture.stop ≤ byteLength text
  boundaries : ∀ capture ∈ captures, IsBoundary text capture.start ∧ IsBoundary text capture.stop

/-- What remains of a text behind a place when the captures are cut out of it, put together from
slices. -/
def strip? (text : List Char) (offset : Nat) : Captures → Option (List Char)
  | [] => slice? text offset (byteLength text)
  | capture :: rest =>
      (slice? text offset capture.start).bind fun gap =>
        (strip? text capture.stop rest).map fun more => gap ++ more

end Captures

namespace Grammar

/-- Reading an input of which a search has the given rounds.  It fails if one of the slices fails
that are taken of the input: those of the captures and those between them. -/
def readSliced? (grammar : Grammar) (input : String) (rounds : List Round) :
    Option (Except Failure Reading) :=
  let captures := rounds.filterMap Round.capture?
  if captures.all fun capture => (slice? input.toList capture.start capture.stop).isSome then
    (Captures.strip? input.toList 0 captures).map fun stripped =>
      let leftover := String.ofList (trim stripped)
      match grammar.rejection? captures with
      | some reason => .error ⟨.rejected reason, leftover⟩
      | none => .ok ⟨grammar.values captures, captures, leftover⟩
  else none

variable {grammar : Grammar} {cursor : Cursor} {tokens : List Token}

theorem slice?_of_reaches {text : List Char} {start stop : Cursor}
    (reaches : (Cursor.ofText text).Reaches start) (onwards : start.Reaches stop) :
    slice? text start.offset stop.offset = some (start.textTo stop) := by
  apply slice?_eq_some_iff.mpr
  refine ⟨start.before.reverse, stop.after, ?_, ?_, ?_⟩
  · rw [← onwards.after_eq]
    exact reaches.text_eq
  · simp [Cursor.offset, byteLength_reverse]
  · simpa [Cursor.offset, byteLength_reverse] using onwards.offset_eq

/-- A capture starts and stops at places of the input. -/
theorem exists_places_of_mem_captures {input : String} {capture : Capture}
    (member : capture ∈ grammar.captures input) :
    ∃ start stop, (Cursor.ofText input.toList).Reaches start ∧ start.Reaches stop ∧
      capture.start = start.offset ∧ capture.stop = stop.offset := by
  rcases List.mem_map.mp member with ⟨token, tokenMember, rfl⟩
  rcases (grammar.scans_tokens input).reaches tokenMember with ⟨toStart, through⟩
  exact ⟨token.start, token.stop, toStart, through, rfl, rfl⟩

theorem areSpans_captures (grammar : Grammar) (input : String) :
    (grammar.captures input).AreSpans input.toList := by
  have boundaries : ∀ capture ∈ grammar.captures input,
      IsBoundary input.toList capture.start ∧ IsBoundary input.toList capture.stop := by
    intro capture member
    rcases exists_places_of_mem_captures member with ⟨start, stop, toStart, through, startEq, stopEq⟩
    rw [startEq, stopEq]
    exact ⟨toStart.isBoundary, (toStart.trans through).isBoundary⟩
  refine ⟨fun _ => start_lt_stop, grammar.captures_pairwise input, ?_, boundaries⟩
  exact fun capture member => (boundaries capture member).2.le

/-- Cutting the tokens of a scan out of a text leaves what they do not cover. -/
theorem strip?_of_scans {text : List Char} (reaches : (Cursor.ofText text).Reaches cursor)
    (scans : grammar.Scans cursor tokens) :
    Captures.strip? text cursor.offset (tokens.map Token.capture) =
      some (Token.uncovered cursor tokens) := by
  induction tokens generalizing cursor with
  | nil =>
      have toEnd : cursor.Reaches ⟨text.reverse, []⟩ :=
        ⟨cursor.after, by simp, by simp [reaches.text_eq]⟩
      have slice := slice?_of_reaches reaches toEnd
      simpa [Cursor.offset, byteLength_reverse, Cursor.textTo, Captures.strip?,
        Token.uncovered] using slice
  | cons token rest ih =>
      rcases scans.first with ⟨toStart, _, _, more⟩
      have through := scans.through
      have gap := slice?_of_reaches reaches toStart
      have onwards := ih (reaches.trans (toStart.trans through)) more
      simp [Captures.strip?, Token.capture, Token.uncovered, gap, onwards]

theorem readSliced?_eq {input : String} {rounds : List Round}
    (captured : rounds.filterMap Round.capture? = grammar.captures input) :
    grammar.readSliced? input rounds = some (grammar.read input) := by
  have slices : (grammar.captures input).all fun capture =>
      (slice? input.toList capture.start capture.stop).isSome := by
    apply List.all_eq_true.mpr
    intro capture member
    rcases exists_places_of_mem_captures member with ⟨start, stop, toStart, through, startEq, stopEq⟩
    simp [startEq, stopEq, slice?_of_reaches toStart through]
  have stripped : Captures.strip? input.toList 0 (grammar.captures input) =
      some (Token.uncovered (Cursor.ofText input.toList) (grammar.tokens input)) :=
    strip?_of_scans (.refl _) (grammar.scans_tokens input)
  simp only [readSliced?, captured, slices, if_true, stripped, Option.map_some]
  rfl

/-- On every input the search ends after finitely many rounds, each of which goes forward to a
boundary of the input.  It takes the captures of the scan, and these can be cut out of the input
one after the other, so reading by slices gives what reading gives and never fails. -/
theorem search_terminates (grammar : Grammar) (input : String) :
    ∃ rounds, grammar.Searches input.toList 0 rounds ∧
      (∀ other, grammar.Searches input.toList 0 other → other = rounds) ∧
      GoForward input.toList 0 rounds ∧
      rounds.filterMap Round.capture? = grammar.captures input ∧
      (grammar.captures input).AreSpans input.toList ∧
      grammar.readSliced? input rounds = some (grammar.read input) := by
  rcases grammar.exists_searches (Cursor.Reaches.refl (Cursor.ofText input.toList)) with
    ⟨rounds, tokens, searches, scans, captured, goForward⟩
  have taken : rounds.filterMap Round.capture? = grammar.captures input := by
    rw [captured, captures, tokens_eq_iff.mpr scans]
  exact ⟨rounds, searches, fun other others => others.unique searches, goForward, taken,
    grammar.areSpans_captures input, readSliced?_eq taken⟩

-- the first `-e` stands inside quotation marks, behind which the search goes on
example : Search.grammar.round? "é \"ü -e o\" -e".toList 2 = some ⟨none, 12⟩ := by decide +kernel

end Grammar

end SearchCommands
