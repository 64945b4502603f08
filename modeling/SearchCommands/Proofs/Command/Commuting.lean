import SearchCommands.Proofs.Command.Stripping
import SearchCommands.Proofs.Grammar.Joining
import SearchCommands.Proofs.Search.Isolation

/-!
# Phases that can change places

Two phases of flags and numbers that take different words of a text can run in either order: each of
them finds the same, and the same is left over (`Command.run_swapped`).  This holds for everything
within the phases, so texts are out of the question at any depth, and so are rules that ask where a
field was captured (`Command.order_matters`).
-/

namespace SearchCommands

open Text

theorem Except.bind_eq_ok_iff {ε α β : Type} {first : Except ε α} {next : α → Except ε β}
    {value : β} : first.bind next = .ok value ↔
      ∃ middle, first = .ok middle ∧ next middle = .ok value := by
  cases first with
  | error error => simp [Except.bind]
  | ok middle => simp [Except.bind]

namespace Command

variable {σ τ : Type}

/-- All grammars within the command are of flags and numbers without quotation marks in their
aliases, and no rule depends on the places of captures. -/
def IsWordwise (command : Command σ) : Prop :=
  ∀ grammar ∈ command.grammars, grammar.IsWordwise ∧ grammar.IgnoresPlaces

theorem IsWordwise.grammars {command : Command σ} (wordwise : command.IsWordwise) :
    ∀ grammar ∈ command.grammars, grammar.IsWordwise :=
  fun grammar member => (wordwise grammar member).1

theorem IsWordwise.ignoresPlaces {command : Command σ} (wordwise : command.IsWordwise) :
    ∀ grammar ∈ command.grammars, grammar.IgnoresPlaces :=
  fun grammar member => (wordwise grammar member).2

/-- A grammar within the command captures the word in the text. -/
def Takes (command : Command σ) (text : String) (word : Placed) : Prop :=
  ∃ grammar ∈ command.grammars, (grammar.captures text).cover word = true

instance decidableTakes (command : Command σ) (text : String) (word : Placed) :
    Decidable (command.Takes text word) :=
  inferInstanceAs (Decidable (∃ grammar ∈ command.grammars,
    (grammar.captures text).cover word = true))

/-- No word of the text is captured within both commands. -/
def DisjointOn (first : Command σ) (second : Command τ) (text : String) : Prop :=
  ∀ word ∈ words text.toList, ¬ (first.Takes text word ∧ second.Takes text word)

instance decidableDisjointOn (first : Command σ) (second : Command τ) (text : String) :
    Decidable (first.DisjointOn second text) :=
  inferInstanceAs (Decidable (∀ word ∈ words text.toList,
    ¬ (first.Takes text word ∧ second.Takes text word)))

theorem DisjointOn.symm {first : Command σ} {second : Command τ} {text : String}
    (disjoint : first.DisjointOn second text) : second.DisjointOn first text :=
  fun word member both => disjoint word member both.symm

/-- Runs two commands, the second one on what the first one leaves over. -/
def runBoth (first : Command σ) (second : Command τ) (target : σ) (target' : τ) (input : String) :
    Except Failure (Outcome (σ × τ)) :=
  (first.run target input).bind fun filled =>
    (second.run target' filled.leftover).bind fun filled' =>
      .ok ⟨(filled.value, filled'.value), filled'.leftover⟩

variable {first : Command σ} {second : Command τ} {target : σ} {target' : τ} {input : String}

theorem runBoth_eq_ok_iff {value : σ} {value' : τ} {working : String} :
    first.runBoth second target target' input = .ok ⟨(value, value'), working⟩ ↔
      ∃ left, first.run target input = .ok ⟨value, left⟩ ∧
        second.run target' left = .ok ⟨value', working⟩ := by
  constructor
  · intro succeeds
    rcases Except.bind_eq_ok_iff.mp succeeds with ⟨filled, ran, more⟩
    rcases Except.bind_eq_ok_iff.mp more with ⟨filled', ran', same⟩
    cases same
    exact ⟨filled.leftover, ran, ran'⟩
  · rintro ⟨left, ran, ran'⟩
    refine Except.bind_eq_ok_iff.mpr ⟨_, ran, ?_⟩
    exact Except.bind_eq_ok_iff.mpr ⟨_, ran', rfl⟩

section Swap

variable (wordwise : first.IsWordwise) (wordwise' : second.IsWordwise)
  (disjoint : first.DisjointOn second input)

include wordwise wordwise' disjoint

/-- The words that the first command takes are no loss to the second one. -/
theorem findAlike_behind :
    Grammar.FindAlike second.grammars input (Grammar.leftoverOf first.grammars input) := by
  rcases Segmented.exists_of_text [] input.toList (Or.inl rfl) with
    ⟨segments, tail, split, blank, segmented⟩
  have made : IsMadeOf input.toList segments := .of_split split blank segmented
  have wordsEq : words input.toList = wordsOf 0 segments := by
    rw [words, PartKind.parts, split, segmented.partsFrom_eq blank]
  apply Grammar.findAlike_of_dropped wordwise'.grammars made
    (Grammar.leftoverOf_isMadeOf wordwise.grammars made)
  intro segment member dropped grammar' member'
  rw [List.all_eq_false] at dropped
  rcases dropped with ⟨grammar, grammarMember, found⟩
  rcases Grammar.exists_word_covered 0 member with ⟨word, wordMember, covered⟩
  by_contra found'
  rw [← wordsEq] at wordMember
  apply disjoint word wordMember
  have captured := (wordwise grammar grammarMember).1.captures_eq split blank segmented
  have captured' := (wordwise' grammar' member').1.captures_eq split blank segmented
  constructor
  · refine ⟨grammar, grammarMember, ?_⟩
    rw [captured.1]
    exact covered grammar (by simpa using found)
  · refine ⟨grammar', member', ?_⟩
    rw [captured'.1]
    exact covered grammar' found'

theorem run_behind {value : σ} {left : String} (ran : first.run target input = .ok ⟨value, left⟩)
    (target' : τ) : RunsAlike (second.run target' input) (second.run target' left) := by
  have leftEq : left = Grammar.leftoverOf first.grammars input := leftover_eq_of_run ran
  apply second.run_alike wordwise'.ignoresPlaces
  rw [leftEq]
  exact findAlike_behind wordwise wordwise' disjoint

/-- The other order succeeds as well, with the same values and the same text for what follows. -/
theorem runBoth_swapped {value : σ} {value' : τ} {working : String}
    (succeeds : first.runBoth second target target' input = .ok ⟨(value, value'), working⟩) :
    second.runBoth first target' target input = .ok ⟨(value', value), working⟩ := by
  rcases runBoth_eq_ok_iff.mp succeeds with ⟨left, ran, ran'⟩
  rcases (run_behind wordwise wordwise' disjoint ran target').ok_iff.mpr ⟨working, ran'⟩ with
    ⟨left', swapped'⟩
  rcases (run_behind wordwise' wordwise disjoint.symm swapped' target).ok_iff.mp ⟨left, ran⟩ with
    ⟨working', swapped⟩
  have same : working = working' := by
    have leftEq : left = Grammar.leftoverOf first.grammars input := leftover_eq_of_run ran
    have leftEq' : left' = Grammar.leftoverOf second.grammars input := leftover_eq_of_run swapped'
    calc working = Grammar.leftoverOf second.grammars left := leftover_eq_of_run ran'
      _ = Grammar.leftoverOf (first.grammars ++ second.grammars) input := by
          rw [leftEq, Grammar.leftoverOf_append]
      _ = Grammar.leftoverOf (second.grammars ++ first.grammars) input :=
          Grammar.leftoverOf_comm wordwise.grammars wordwise'.grammars input
      _ = Grammar.leftoverOf first.grammars left' := by rw [leftEq', Grammar.leftoverOf_append]
      _ = working' := (leftover_eq_of_run swapped).symm
  rw [runBoth_eq_ok_iff, same]
  exact ⟨left', swapped', swapped⟩

end Swap

end Command

namespace Phases

variable {σ τ υ : Type}

/-- The one phases and then the others. -/
def append : Phases σ → Phases σ → Phases σ
  | .done, later => later
  | .next command initial put rest, later => .next command initial put (rest.append later)

theorem run_append (before later : Phases σ) (target : σ) (input : String) :
    (before.append later).run target input =
      (before.run target input).bind fun filled => later.run filled.value filled.leftover := by
  match before with
  | .done => rfl
  | .next command initial put rest =>
      rw [append, run_next, run_next]
      cases command.run initial input with
      | error failure => rfl
      | ok filled => exact run_append rest later _ _

theorem grammars_append (before later : Phases σ) :
    (before.append later).grammars = before.grammars ++ later.grammars := by
  match before with
  | .done => rfl
  | .next command initial put rest =>
      rw [append, grammars, grammars, grammars_append rest later, List.append_assoc]

/-- Two phases are run one after the other, and then their values are put into the target. -/
theorem run_both (first : Command τ) (initial : τ) (put : τ → σ → σ) (second : Command υ)
    (initial' : υ) (put' : υ → σ → σ) (rest : Phases σ) (target : σ) (input : String) :
    (Phases.next first initial put (.next second initial' put' rest)).run target input =
      (first.runBoth second initial initial' input).bind fun both =>
        rest.run (put' both.value.2 (put both.value.1 target)) both.leftover := by
  rw [run_next, Command.runBoth]
  cases first.run initial input with
  | error failure => rfl
  | ok filled =>
      simp only [Except.bind, run_next]
      cases second.run initial' filled.leftover with
      | error failure => rfl
      | ok filled' => rfl

/-- What phases leave over, or how they fail, does not depend on the target. -/
theorem run_target (phases : Phases σ) (target target' : σ) (input : String) :
    ResultsAlike Eq (Outcome.Alike (fun _ _ => True) Eq) (phases.run target input)
      (phases.run target' input) := by
  match phases with
  | .done => exact .done ⟨trivial, rfl⟩
  | .next command initial put rest =>
      rw [run_next, run_next]
      cases command.run initial input with
      | error failure => exact .failed rfl
      | ok filled => exact run_target rest _ _ _

end Phases

/-- What is left over, with or without success. -/
def leftoverOfResult {σ : Type} : Except Failure (Outcome σ) → String
  | .ok outcome => outcome.leftover
  | .error failure => failure.leftover

theorem Grammar.leftover_fill {σ : Type} (grammar : Grammar) (setters : List (Setter σ))
    (target : σ) (input : String) :
    leftoverOfResult (grammar.fill setters target input) = grammar.leftover input := by
  rw [fill_eq]
  split
  · rfl
  · split
    · rfl
    · rfl

namespace Command

variable {σ τ υ : Type}

theorem leftover_run_target (command : Command σ) (target target' : σ) (input : String) :
    leftoverOfResult (command.run target input) = leftoverOfResult (command.run target' input) := by
  rcases command with ⟨grammar, setters, accepted, phases⟩
  rw [run_mk, run_mk]
  have same := phases.run_target target target' input
  generalize phases.run target input = result, phases.run target' input = result' at same
  cases same with
  | failed same => rw [same]
  | done same => simp only [Except.bind, Grammar.leftover_fill, same.leftover]

section Around

variable (grammar : Grammar) (setters : List (Setter σ))
  (accepted : Setter.firstFault? grammar setters = none) (before rest : Phases σ)

/-- What happens behind the first phases. -/
theorem run_behind_phases (first : Command τ) (initial : τ) (put : τ → σ → σ) (second : Command υ)
    (initial' : υ) (put' : υ → σ → σ) {target : σ} {input : String} {filled : Outcome σ}
    (ran : before.run target input = .ok filled) :
    (mk grammar setters accepted (before.append
      (.next first initial put (.next second initial' put' rest)))).run target input =
      (first.runBoth second initial initial' (Grammar.leftoverOf before.grammars input)).bind
        fun both => (mk grammar setters accepted rest).run
          (put' both.value.2 (put both.value.1 filled.value)) both.leftover := by
  rw [run_mk, Phases.run_append, ran, ← Phases.leftover_eq_of_run ran]
  simp only [Except.bind, Phases.run_both]
  cases first.runBoth second initial initial' filled.leftover with
  | error failure => rfl
  | ok both => exact (run_mk grammar setters accepted rest _ _).symm

theorem ownStage_eq (phases : Phases σ) (place : Place) (input : String) :
    (mk grammar setters accepted phases).ownStage place input =
      ⟨⟨place, grammar, setters⟩, Grammar.leftoverOf phases.grammars input⟩ := by
  rw [ownStage, Node.leftoverOf_eq, Phases.grammars_nodes]

end Around

/-- Two phases that stand next to each other can change places, whatever comes before and after
them, if they are made of flags and numbers, have no rules about places, and take no word of their
text in common.  They succeed in both orders with the same values or fail in both, and the grammar of the
command reads the same text.  What the command leaves over is the same, even if it fails later. -/
theorem run_swapped (first : Command τ) (initial : τ) (put : τ → σ → σ) (second : Command υ)
    (initial' : υ) (put' : υ → σ → σ) (grammar : Grammar) (setters : List (Setter σ))
    (accepted : Setter.firstFault? grammar setters = none) (before rest : Phases σ) (target : σ)
    (input : String) (wordwise : first.IsWordwise) (wordwise' : second.IsWordwise)
    (disjoint : first.DisjointOn second (Grammar.leftoverOf before.grammars input)) :
    let text := Grammar.leftoverOf before.grammars input
    let last := mk grammar setters accepted rest
    let inOrder := mk grammar setters accepted
      (before.append (.next first initial put (.next second initial' put' rest)))
    let swapped := mk grammar setters accepted
      (before.append (.next second initial' put' (.next first initial put rest)))
    (∀ value value' working,
      first.runBoth second initial initial' text = .ok ⟨(value, value'), working⟩ ↔
        second.runBoth first initial' initial text = .ok ⟨(value', value), working⟩) ∧
    inOrder.ownStage [] input = swapped.ownStage [] input ∧
    ∀ filled, before.run target input = .ok filled →
      inOrder.run target input = ((first.runBoth second initial initial' text).bind fun both =>
        last.run (put' both.value.2 (put both.value.1 filled.value)) both.leftover) ∧
      swapped.run target input = ((second.runBoth first initial' initial text).bind fun both =>
        last.run (put both.value.2 (put' both.value.1 filled.value)) both.leftover) ∧
      ∀ both, first.runBoth second initial initial' text = .ok both →
        leftoverOfResult (inOrder.run target input) =
          leftoverOfResult (swapped.run target input) := by
  intro text last inOrder swapped
  refine ⟨?_, ?_, ?_⟩
  · intro value value' working
    exact ⟨runBoth_swapped wordwise wordwise' disjoint,
      runBoth_swapped wordwise' wordwise disjoint.symm⟩
  · have same := Grammar.leftoverOf_comm wordwise.grammars wordwise'.grammars text
    simp only [Grammar.leftoverOf_append] at same
    simp only [inOrder, swapped, ownStage_eq, Phases.grammars_append, Phases.grammars,
      Grammar.leftoverOf_append]
    rw [same]
  · intro filled ran
    have inOrderRun := run_behind_phases grammar setters accepted before rest first initial put
      second initial' put' ran
    have swappedRun := run_behind_phases grammar setters accepted before rest second initial' put'
      first initial put ran
    refine ⟨inOrderRun, swappedRun, ?_⟩
    rintro ⟨⟨value, value'⟩, working⟩ succeeds
    have succeeds' := runBoth_swapped wordwise wordwise' disjoint succeeds
    rw [inOrderRun, swappedRun, succeeds, succeeds']
    exact last.leftover_run_target _ _ working

/-- A flag `e`. -/
def loneFlag : Command Bool :=
  .mk ⟨[⟨"e", .flag, ["e"], []⟩], by decide +kernel⟩ [⟨"e", fun _ _ => .ok true⟩]
    (by decide +kernel) .done

theorem isWordwise_loneFlag : loneFlag.IsWordwise := by
  intro grammar member
  rcases List.mem_singleton.mp member with rfl
  have builtIn : Grammar.HasBuiltInRules ⟨[⟨"e", .flag, ["e"], []⟩], by decide +kernel⟩ := by
    simp [Grammar.HasBuiltInRules]
  exact ⟨.of_flag rfl (by simp), builtIn.ignoresPlaces⟩

/-- The criteria of `mrekk e cs>4` and a flag can be read in either order. -/
theorem run_swapped_criteria :
    let input := "mrekk e cs>4"
    Beatmap.Criteria.command.IsWordwise ∧ loneFlag.IsWordwise ∧
      Beatmap.Criteria.command.DisjointOn loneFlag input ∧
      ∀ criteria flag working,
        Beatmap.Criteria.command.runBoth loneFlag .empty false input =
            .ok ⟨(criteria, flag), working⟩ ↔
          loneFlag.runBoth Beatmap.Criteria.command false .empty input =
            .ok ⟨(flag, criteria), working⟩ := by
  intro input
  have criteria : Beatmap.Criteria.command.IsWordwise := by
    intro grammar member
    rcases List.mem_singleton.mp member with rfl
    exact ⟨Beatmap.Criteria.isWordwise, Search.criteria_hasBuiltInRules.ignoresPlaces⟩
  have disjoint : Beatmap.Criteria.command.DisjointOn loneFlag input := by decide +kernel
  have swapped := run_swapped Beatmap.Criteria.command .empty Search.putCriteria loneFlag false
    (fun flag search => { search with exact := flag }) Search.grammar
    (Search.Part.all.map Search.Part.setter) (by decide +kernel) .done .done Search.empty input
    criteria isWordwise_loneFlag disjoint
  exact ⟨criteria, isWordwise_loneFlag, disjoint, swapped.1⟩

end Command

namespace Grammar

variable {grammar grammar' : Grammar} {name name' : String} {aliases aliases' : List String}
  {rules rules' : List Rule}

/-- No word is captured by both grammars. -/
def Apart (grammar grammar' : Grammar) : Prop :=
  ∀ word, word ≠ [] → NoBlank word →
    grammar.captures (String.ofList word) = [] ∨ grammar'.captures (String.ofList word) = []

theorem exists_alias_of_captures (lone : grammar.fields = [⟨name, .flag, aliases, rules⟩])
    (plain : ∀ other ∈ aliases, '"' ∉ other.toList) {word : List Char} (some : word ≠ [])
    (inked : NoBlank word) (captured : grammar.captures (String.ofList word) ≠ []) :
    ∃ other ∈ aliases, SpelledAs other.toList word := by
  have wordwise : grammar.IsWordwise := .of_flag lone plain
  have entries := wordwise.entries_of_word some inked
  cases found : grammar.entryOf? word with
  | none => simp [found, captured] at entries
  | some entry =>
      rcases wordwise.spells_of_entryOf? some inked found with ⟨field, member, spells⟩
      rw [lone, List.mem_singleton] at member
      subst member
      generalize entry.2 = value at spells
      cases spells with
      | flag _ introduced =>
          rcases introduced with ⟨other, isAlias, spelled, _⟩
          exact ⟨other, isAlias, spelled⟩
      | text kind | positional kind | number kind => cases kind

/-- Flags have no word in common if their aliases differ in more than their letter case. -/
theorem apart_of_flags (lone : grammar.fields = [⟨name, .flag, aliases, rules⟩])
    (lone' : grammar'.fields = [⟨name', .flag, aliases', rules'⟩])
    (plain : ∀ other ∈ aliases, '"' ∉ other.toList)
    (plain' : ∀ other ∈ aliases', '"' ∉ other.toList)
    (different : ∀ other ∈ aliases, ∀ other' ∈ aliases',
      other.toList.map foldCase ≠ other'.toList.map foldCase) : grammar.Apart grammar' := by
  intro word some inked
  by_contra both
  rw [not_or] at both
  rcases exists_alias_of_captures lone plain some inked both.1 with ⟨other, isAlias, spelled⟩
  rcases exists_alias_of_captures lone' plain' some inked both.2 with ⟨other', isAlias', spelled'⟩
  exact different other isAlias other' isAlias' (spelled.foldCase_eq spelled')

end Grammar

namespace Command

/-- A flag `x` around a phase for a text that the alias `q` introduces. -/
def textWithin : Command String :=
  .mk ⟨[⟨"x", .flag, ["x"], []⟩], by decide +kernel⟩ [] rfl
    (.next (.mk ⟨[⟨"t", .text false, ["q"], []⟩], by decide +kernel⟩
      [⟨"t", fun value _ => (value.requireText "t").mapError .rejected⟩] (by decide +kernel) .done)
      "" (fun text _ => text) .done)

/-- A flag `x` with a rule that it starts its text. -/
def flagAtStart : Command Bool :=
  .mk ⟨[⟨"x", .flag, ["x"], [.custom (fun _ captures => captures.all fun capture =>
    capture.start == 0) (fun field => s!"{field} has to come first") []]⟩], by decide +kernel⟩
    [⟨"x", fun _ _ => .ok true⟩] (by decide +kernel) .done

/-- It is not enough that the own grammars of two phases are made of flags and take no word in
common: a text within one of them can take the word of the other, and a rule can ask where a field
was captured. -/
theorem order_matters :
    (textWithin.grammar.IsWordwise ∧ loneFlag.grammar.IsWordwise ∧
      textWithin.grammar.Apart loneFlag.grammar ∧
      textWithin.runBoth loneFlag "" false "q e" = .ok ⟨("e", false), ""⟩ ∧
      loneFlag.runBoth textWithin false "" "q e" = .ok ⟨(true, ""), "q"⟩) ∧
    flagAtStart.grammar.IsWordwise ∧ flagAtStart.grammar.Apart loneFlag.grammar ∧
      (flagAtStart.runBoth loneFlag false false "e x").isOk = false ∧
      loneFlag.runBoth flagAtStart false false "e x" = .ok ⟨(true, true), ""⟩ := by
  refine ⟨⟨.of_flag rfl (by simp), .of_flag rfl (by simp), ?_, ?_, ?_⟩,
    .of_flag rfl (by simp), ?_, ?_, ?_⟩
  · exact Grammar.apart_of_flags rfl rfl (by simp) (by simp) (by decide)
  · rfl
  · rfl
  · exact Grammar.apart_of_flags rfl rfl (by simp) (by simp) (by decide)
  · decide +kernel
  · rfl

end Command

end SearchCommands
