import SearchCommands.CommandLine.Session
import SearchCommands.Proofs.CommandLine.Arguments
import SearchCommands.Proofs.Search.Spacing

/-!
# Sessions and single commands

A session trims its lines and a command in the arguments stays as it is, but no search depends on
the blanks at its ends (`Search.read_trim`).  So a session says about each line what the program
says when the line is its command, and nothing that comes after the farewell is looked at
(`run_eq_commands`).
-/

namespace SearchCommands.CommandLine

open Text

/-- A line without the blanks at its ends. -/
def stripped (line : String) : String := String.ofList (trim line.toList)

/-- A line without anything to run. -/
def isIdle (line : String) : Bool := (stripped line).isEmpty

/-- A line that ends the session. -/
def isFarewell (line : String) : Bool := stripped line == farewell

/-- The lines that a session answers. -/
def heard (lines : List String) : List String := lines.takeWhile fun line => !isFarewell line

/-- Whether a line is taken as the command when it stands behind the arguments. -/
def isCommand (arguments : List String) (line : String) : Bool :=
  (Options.ofArguments (arguments ++ [line])).any fun own => own.command.isSome

/-- Whether the bytes of a line spell a text.  A carriage return can stand before the line feed. -/
def IsTyped (bytes : List UInt8) (line : String) : Prop :=
  lineText bytes = some line ∨ lineText bytes = some (line ++ "\r")

/-- What the program writes when the line is its command, unless there is nothing to run. -/
def single (arguments : List String) (environment : Option String) (line : String) : Output :=
  if isIdle line then .empty else (run (arguments ++ [line]) environment []).output

/-- What a session writes when it has an answer to every line. -/
def transcript (answer : String → Output) (lines : List String) : Output :=
  ⟨String.join ((heard lines).map fun line => prompt ++ (answer line).stdout) ++ prompt,
    String.join ((heard lines).map fun line => (answer line).stderr)⟩

theorem Output.append_def (first second : Output) :
    first ++ second = ⟨first.stdout ++ second.stdout, first.stderr ++ second.stderr⟩ := rfl

section Lines

variable {lines : List String} {line text : String} {options : Options} {answer : String → Output}

theorem report_stripped (options : Options) (line : String) :
    report options (stripped line) = report options line := by
  rw [report, report, stripped, Search.read_trim]

/-- Reports depend on no command but the one that they are on. -/
theorem report_setCommand (options : Options) (command : Option String) (line : String) :
    report { options with command := command } line = report options line := by
  unfold report
  cases Search.read line <;> rfl

theorem stripped_carriageReturn (line : String) : stripped (line ++ "\r") = stripped line := by
  have blank : AllBlank ['\r'] := by decide
  simp [stripped, trim_append_blanks blank]

theorem isFarewell_of_isIdle (idle : isIdle line = true) : isFarewell line = false := by
  simp_all [isIdle, isFarewell, farewell]

/-- Whether a line is trimmed makes no difference to what is done with it. -/
theorem step_eq (options : Options) (line : String) :
    step options line = if isFarewell line then .leave
      else .goOn (if isIdle line then .empty else report options line) := by
  have unfolded : step options line = if isIdle line then .goOn .empty
      else if isFarewell line then .leave else .goOn (report options (stripped line)) := rfl
  rw [unfolded, report_stripped]
  by_cases idle : isIdle line
  · simp [idle, isFarewell_of_isIdle idle]
  · simp [idle]

theorem IsTyped.exists_text {bytes : List UInt8} (typed : IsTyped bytes line) :
    ∃ text, lineText bytes = some text ∧ ∀ options, step options text = step options line := by
  rcases typed with same | ended
  · exact ⟨line, same, fun _ => rfl⟩
  · refine ⟨_, ended, fun options => ?_⟩
    have same := stripped_carriageReturn line
    unfold stripped at same
    simp only [step, same]

@[simp]
theorem transcript_nil : transcript answer [] = ⟨prompt, ""⟩ := by
  simp [transcript, heard]

theorem transcript_farewell (leaves : isFarewell line = true) :
    transcript answer (line :: lines) = ⟨prompt, ""⟩ := by
  simp [transcript, heard, leaves]

theorem transcript_cons (stays : isFarewell line = false) :
    transcript answer (line :: lines) =
      ⟨prompt, ""⟩ ++ answer line ++ transcript answer lines := by
  simp [transcript, heard, stays, Output.append_def, String.append_assoc]

theorem transcript_congr {answer' : String → Output}
    (same : ∀ line ∈ heard lines, answer line = answer' line) :
    transcript answer lines = transcript answer' lines := by
  have stdout := List.map_congr_left fun line member =>
    congrArg (prompt ++ ·.stdout) (same line member)
  have stderr := List.map_congr_left fun line member => congrArg Output.stderr (same line member)
  simp only [transcript, stdout, stderr]

end Lines

section Sessions

variable {lines : List String} {typed : List (List UInt8)} {options : Options}

/-- What one line does to a session. -/
theorem session_cons {bytes : List UInt8} {line : String} (first : IsTyped bytes line)
    (rest : List (Option String)) : session options (lineText bytes :: rest) =
      if isFarewell line then ⟨0, ⟨prompt, ""⟩⟩
      else (session options rest).after
        (⟨prompt, ""⟩ ++ if isIdle line then .empty else report options line) := by
  obtain ⟨text, isText, same⟩ := first.exists_text
  simp only [isText, session, same, step_eq]
  by_cases leaves : isFarewell line = true <;> simp [leaves]

theorem session_eq (spelled : List.Forall₂ IsTyped typed lines) :
    session options (typed.map lineText) =
      ⟨0, transcript (fun line => if isIdle line then .empty else report options line) lines⟩ := by
  induction spelled with
  | nil => simp [session]
  | @cons bytes line typed lines first spelled ih =>
      simp only [List.map_cons, session_cons first, ih]
      by_cases leaves : isFarewell line = true
      · simp [leaves, transcript_farewell]
      · simp [leaves, transcript_cons, Ending.after]

/-- The farewell ends a session, whatever lines come after it. -/
theorem session_append (spelled : List.Forall₂ IsTyped typed lines)
    (leaves : ∃ line ∈ lines, isFarewell line = true) (later : List (Option String)) :
    session options (typed.map lineText ++ later) = session options (typed.map lineText) := by
  induction spelled with
  | nil => simp at leaves
  | @cons bytes line typed lines first spelled ih =>
      simp only [List.map_cons, List.cons_append, session_cons first]
      by_cases now : isFarewell line = true
      · simp [now]
      · have onwards : ∃ line ∈ lines, isFarewell line = true := by simpa [now] using leaves
        simp [now, ih onwards]

end Sessions

/-- The lines of an input stay as they are when it goes on after a line feed. -/
theorem splitLines_prefix_append (input later : List UInt8) :
    splitLines input <+: splitLines (input ++ 0x0A :: later) := by
  have whole : (input ++ 0x0A :: later).splitOn 0x0A = input.splitOn 0x0A ++ later.splitOn 0x0A :=
    List.splitOnP_append_cons input later (by decide)
  have parts : splitLines input <+: input.splitOn 0x0A := by
    simp only [splitLines]
    split
    · apply List.dropLast_prefix
    · apply List.prefix_refl
  apply parts.trans
  simp only [splitLines, whole]
  split
  · have some : later.splitOn 0x0A ≠ [] := List.splitOnP_ne_nil _ _
    rw [List.dropLast_append_of_ne_nil some]
    apply List.prefix_append
  · apply List.prefix_append

section Typing

/-- The bytes of lines that are typed one after the other. -/
def typedBytes (lines : List String) : List UInt8 :=
  lines.flatMap fun line => line.toByteArray.data.toList ++ [0x0A]

/-- The byte of a line feed occurs in the encoding of no other character. -/
theorem eq_lineFeed_of_mem_utf8EncodeChar {c : Char} (member : 0x0A ∈ String.utf8EncodeChar c) :
    c = '\n' := by
  have apart (n : Nat) (large : 128 ≤ n) (small : n < 256) : (0x0A : UInt8) ≠ UInt8.ofNat n := by
    intro same
    have values := congrArg UInt8.toNat same
    rw [UInt8.toNat_ofNat_of_lt' small] at values
    have value : (0x0A : UInt8).toNat = 10 := rfl
    omega
  simp only [String.utf8EncodeChar] at member
  split_ifs at member with ascii
  · have same := congrArg UInt8.toNat (List.mem_singleton.mp member)
    rw [UInt8.toNat_ofNat_of_lt' (Nat.lt_of_le_of_lt ascii (by decide))] at same
    apply Char.ext
    apply UInt32.toNat.inj
    simpa using same.symm
  -- a character of several bytes has none below 128
  all_goals
    simp only [List.mem_cons, List.not_mem_nil, or_false] at member
    grind

theorem lineText_toByteArray (line : String) :
    lineText line.toByteArray.data.toList = some line := by
  have valid := line.isValidUTF8
  simp only [lineText, String.fromUTF8?, Array.toArray_toList, valid, ↓reduceDIte]
  rfl

theorem lineFeed_notMem_toByteArray {line : String} (one : '\n' ∉ line.toList) :
    0x0A ∉ line.toByteArray.data.toList := by
  intro member
  rw [← String.ofList_toList (s := line), String.toByteArray_ofList, List.utf8Encode,
    List.toList_data_toByteArray] at member
  obtain ⟨c, inLine, inChar⟩ := List.mem_flatMap.mp member
  exact one (eq_lineFeed_of_mem_utf8EncodeChar inChar ▸ inLine)

theorem splitOn_typedBytes {lines : List String} (one : ∀ line ∈ lines, '\n' ∉ line.toList) :
    (typedBytes lines).splitOn 0x0A = lines.map (·.toByteArray.data.toList) ++ [[]] := by
  induction lines with
  | nil => rfl
  | cons line lines ih =>
      have whole : typedBytes (line :: lines) =
          line.toByteArray.data.toList ++ 0x0A :: typedBytes lines := by simp [typedBytes]
      have first : line.toByteArray.data.toList.splitOn 0x0A = [line.toByteArray.data.toList] :=
        List.splitOn_eq_singleton (lineFeed_notMem_toByteArray (one line List.mem_cons_self))
      have parts : (typedBytes (line :: lines)).splitOn 0x0A =
          line.toByteArray.data.toList.splitOn 0x0A ++ (typedBytes lines).splitOn 0x0A := by
        rw [whole]
        exact List.splitOnP_append_cons _ _ (by decide)
      rw [parts, first, ih fun line member => one line (List.mem_cons_of_mem _ member)]
      rfl

/-- Lines of any texts can be typed. -/
theorem typed_typedBytes {lines : List String} (one : ∀ line ∈ lines, '\n' ∉ line.toList) :
    List.Forall₂ IsTyped (splitLines (typedBytes lines)) lines := by
  rw [splitLines, splitOn_typedBytes one]
  simp only [List.getLast?_concat, ↓reduceIte, List.dropLast_concat, List.forall₂_map_left_iff]
  exact List.forall₂_same.mpr fun line _ => Or.inl (lineText_toByteArray line)

end Typing

/-- A session and single commands agree.  For lines that are commands when they stand behind the
arguments, what a session writes is the prompt and then what the program writes for the line alone,
one line after the other up to the farewell, and a last prompt.  All of them end well.  Whatever
bytes come after the farewell, the session is the same. -/
theorem run_eq_commands {arguments : List String} {environment : Option String}
    {input : List UInt8} {options : Options} {lines : List String}
    (asked : Options.ofArguments arguments = some options) (converses : options.command = none)
    (logs : loggingStarts environment options.log = true)
    (typed : List.Forall₂ IsTyped (splitLines input) lines)
    (commands : ∀ line ∈ heard lines, isIdle line = false → isCommand arguments line = true) :
    run arguments environment input = ⟨0, transcript (single arguments environment) lines⟩ ∧
      (∀ line ∈ heard lines, isIdle line = false → ∀ input',
        run (arguments ++ [line]) environment input' = ⟨0, single arguments environment line⟩) ∧
      ((∃ line ∈ lines, isFarewell line = true) → ∀ later,
        run arguments environment (input ++ 0x0A :: later) = run arguments environment input) := by
  have runs (input : List UInt8) : run arguments environment input =
      session options ((splitLines input).map lineText) := by
    simp [run, asked, converses, logs]
  have alone : ∀ line ∈ heard lines, isIdle line = false → ∀ input',
      run (arguments ++ [line]) environment input' = ⟨0, report options line⟩ := by
    intro line member busy input'
    obtain ⟨own, behind, asks⟩ := (Option.any_eq_true _ _).mp (commands line member busy)
    obtain rfl := Options.ofArguments_command asked converses behind asks
    simp [run, behind, logs, report_setCommand]
  have single_eq : ∀ line ∈ heard lines, single arguments environment line =
      if isIdle line then .empty else report options line := by
    intro line member
    by_cases idle : isIdle line = true
    · simp [single, idle]
    · simp [single, idle, alone line member (by simpa using idle)]
  refine ⟨?_, ?_, ?_⟩
  · rw [runs, session_eq typed, transcript_congr single_eq]
  · intro line member busy input'
    simp [alone line member busy, single_eq line member, busy]
  · intro leaves later
    obtain ⟨more, whole⟩ := splitLines_prefix_append input later
    rw [runs, runs, ← whole, List.map_append, session_append typed leaves]

theorem run_of_freedom :
    isCommand ["--relation", "maps", "--"] "--cs>4" = true ∧
      isIdle "\u00a0 " = true ∧ isFarewell " /bye\t" = true ∧
      run ["--relation", "maps", "--"] none
          (typedBytes [" freedom  cs>4 ", "\u00a0 ", "--cs>4", " /bye\t", "cs>"]) =
        ⟨0, transcript (single ["--relation", "maps", "--"] none)
          [" freedom  cs>4 ", "\u00a0 ", "--cs>4", " /bye\t", "cs>"]⟩ ∧
      run ["--relation", "maps", "--"] none
          (typedBytes [" freedom  cs>4 ", "\u00a0 ", "--cs>4", " /bye\t", "cs>"] ++ [0x0A, 0xFF]) =
        run ["--relation", "maps", "--"] none
          (typedBytes [" freedom  cs>4 ", "\u00a0 ", "--cs>4", " /bye\t", "cs>"]) := by
  have typed := @typed_typedBytes [" freedom  cs>4 ", "\u00a0 ", "--cs>4", " /bye\t", "cs>"]
    (by decide +kernel)
  have asked : Options.ofArguments ["--relation", "maps", "--"] =
      some ⟨false, "maps", "scores", "warn", none⟩ := by decide +kernel
  have agreement := run_eq_commands asked rfl (by decide +kernel : loggingStarts none "warn" = true)
    typed (by decide +kernel)
  refine ⟨by decide +kernel, by decide +kernel, by decide +kernel, agreement.1, ?_⟩
  exact agreement.2.2 ⟨" /bye\t", by decide +kernel, by decide +kernel⟩ [0xFF]

end SearchCommands.CommandLine
