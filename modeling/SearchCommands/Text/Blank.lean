/-!
# Blank characters

Blanks separate the words of a command: the characters with the White_Space property of the
Unicode character database. Trimming removes the blanks at both ends of a text and nothing else.
-/

namespace SearchCommands.Text

/-- The White_Space characters: the ASCII blanks, next line, and the spaces of all widths. The zero
width space and the separators from U+001C to U+001F are not among them. -/
def isBlank (c : Char) : Bool :=
  let code := c.toNat
  (9 ≤ code && code ≤ 13) || code == 0x20 || code == 0x85 || code == 0xA0 || code == 0x1680 ||
    (0x2000 ≤ code && code ≤ 0x200A) || code == 0x2028 || code == 0x2029 || code == 0x202F ||
    code == 0x205F || code == 0x3000

/-- Removes the blanks at the end of a text. -/
def trimEnd (text : List Char) : List Char :=
  (text.reverse.dropWhile isBlank).reverse

/-- Removes the blanks at both ends of a text. -/
def trim (text : List Char) : List Char :=
  trimEnd (text.dropWhile isBlank)

/-- Trims the text, takes one pair of quotation marks off that encloses all of it, and trims what
they enclosed. A single quotation mark encloses nothing and stays. -/
def unquote (text : List Char) : List Char :=
  match trim text with
  | '"' :: rest => if rest.getLast? = some '"' then trim rest.dropLast else '"' :: rest
  | plain => plain

/-- The number of bytes that a text takes in UTF-8. -/
def byteLength : List Char → Nat
  | [] => 0
  | c :: rest => c.utf8Size + byteLength rest

theorem trimEnd_append_blank {text blanks : List Char} (allBlank : ∀ c ∈ blanks, isBlank c = true) :
    trimEnd (text ++ blanks) = trimEnd text := by
  unfold trimEnd
  rw [List.reverse_append, List.dropWhile_append_of_pos]
  intro c member
  exact allBlank c (List.mem_reverse.1 member)

@[simp]
theorem byteLength_append (left right : List Char) :
    byteLength (left ++ right) = byteLength left + byteLength right := by
  induction left with
  | nil => simp [byteLength]
  | cons c rest ih => simp [byteLength, ih, Nat.add_assoc]

end SearchCommands.Text
