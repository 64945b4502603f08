import SearchCommands.Text.Blank
import SearchCommands.Text.WordCharacter

/-!
# Cursors

A cursor is a place in a text together with all of the text: what was read and what is still to be
read. What a pattern may ask of a place, such as whether a word ends there or whether the place is
inside quotation marks, is a function of the cursor alone.
-/

namespace SearchCommands

/-- A place in a text. -/
structure Cursor where
  /-- The characters before the place, the nearest one first. -/
  before : List Char
  /-- The characters after the place. -/
  after : List Char
  deriving DecidableEq, Repr

namespace Cursor

/-- The place before a text. -/
def ofText (text : List Char) : Cursor := ⟨[], text⟩

/-- The number of UTF-8 bytes before the place. -/
def offset (cursor : Cursor) : Nat := Text.byteLength cursor.before

/-- The text from one place to a later place of the same text. -/
def textTo (start stop : Cursor) : List Char :=
  start.after.take (start.after.length - stop.after.length)

/-- Reads the given characters, each compared with the one in the text. -/
def read? (same : Char → Char → Bool) : List Char → Cursor → Option Cursor
  | [], cursor => some cursor
  | _ :: _, ⟨_, []⟩ => none
  | expected :: more, ⟨before, found :: after⟩ =>
      if same expected found then read? same more ⟨found :: before, after⟩ else none

/-- The places reached by reading none, one, two and more accepted characters, in this order. -/
def placesOf (accepts : Char → Bool) (before : List Char) : List Char → List Cursor
  | [] => [⟨before, []⟩]
  | c :: after =>
      ⟨before, c :: after⟩ :: if accepts c then placesOf accepts (c :: before) after else []

/-- The places reached by reading accepted characters, the nearest one first. -/
def places (accepts : Char → Bool) (cursor : Cursor) : List Cursor :=
  placesOf accepts cursor.before cursor.after

/-- Whether a word starts or ends at the place: there is a word character on exactly one side. -/
def atWordEdge (cursor : Cursor) : Bool :=
  cursor.before.head?.any Text.isWordCharacter != cursor.after.head?.any Text.isWordCharacter

/-- Whether the place is inside a pair of quotation marks. The marks of a text pair up from its
start, so an odd number of them before the place opens a pair if another one follows. -/
def insideQuotes (cursor : Cursor) : Bool :=
  cursor.before.count '"' % 2 == 1 && cursor.after.contains '"'

/-- The place after the next quotation mark, or after the text if there is none. -/
def pastQuoteOf (before : List Char) : List Char → Cursor
  | [] => ⟨before, []⟩
  | c :: after => if c == '"' then ⟨c :: before, after⟩ else pastQuoteOf (c :: before) after

/-- The place after the next quotation mark, or after the text if there is none. -/
def pastQuote (cursor : Cursor) : Cursor := pastQuoteOf cursor.before cursor.after

/-- One place is reached from another by reading some text. -/
def Reaches (start stop : Cursor) : Prop :=
  ∃ text, start.after = text ++ stop.after ∧ stop.before = text.reverse ++ start.before

theorem Reaches.refl (cursor : Cursor) : cursor.Reaches cursor := ⟨[], by simp⟩

theorem Reaches.trans {first second third : Cursor} (left : first.Reaches second)
    (right : second.Reaches third) : first.Reaches third := by
  obtain ⟨text, afterEq, beforeEq⟩ := left
  obtain ⟨more, afterEq', beforeEq'⟩ := right
  exact ⟨text ++ more, by simp [afterEq, afterEq'], by simp [beforeEq, beforeEq']⟩

theorem Reaches.step (before : List Char) (c : Char) (after : List Char) :
    Reaches ⟨before, c :: after⟩ ⟨c :: before, after⟩ := ⟨[c], by simp⟩

theorem Reaches.length_le {start stop : Cursor} (reaches : start.Reaches stop) :
    stop.after.length ≤ start.after.length := by
  obtain ⟨text, afterEq, _⟩ := reaches
  simp [afterEq]

/-- What was read from one place to the other is the text between them. -/
theorem Reaches.after_eq {start stop : Cursor} (reaches : start.Reaches stop) :
    start.after = start.textTo stop ++ stop.after := by
  obtain ⟨text, afterEq, _⟩ := reaches
  have cut : start.textTo stop = text := by simp [textTo, afterEq]
  rw [cut, afterEq]

theorem reaches_of_read? {same : Char → Char → Bool} {text : List Char} {start stop : Cursor}
    (found : read? same text start = some stop) : start.Reaches stop := by
  induction text generalizing start with
  | nil =>
      simp only [read?, Option.some.injEq] at found
      exact found ▸ .refl start
  | cons expected more ih =>
      obtain ⟨before, after⟩ := start
      cases after with
      | nil => simp [read?] at found
      | cons c after =>
          simp only [read?] at found
          split at found
          · exact (Reaches.step before c after).trans (ih found)
          · simp at found

theorem reaches_of_mem_placesOf {accepts : Char → Bool} {before after : List Char} {place : Cursor}
    (member : place ∈ placesOf accepts before after) : Reaches ⟨before, after⟩ place := by
  induction after generalizing before with
  | nil =>
      simp only [placesOf, List.mem_singleton] at member
      exact member ▸ .refl _
  | cons c after ih =>
      simp only [placesOf, List.mem_cons] at member
      rcases member with rfl | member
      · exact .refl _
      · split at member
        · exact (Reaches.step before c after).trans (ih member)
        · simp at member

end Cursor

end SearchCommands
