import SearchCommands.Proofs.Beatmap.Words
import SearchCommands.Proofs.Grammar.Isolation
import SearchCommands.Proofs.Search.Words

/-!
# Quoted texts in searches

What stands in a pair of quotation marks has no influence on how the rest of a command is read.
The criteria leave every pair over, so that the second phase has to do with the same pair: either it
stays in the leftover, or one text of the search is the text in it.
-/

namespace SearchCommands.Search

open Text Beatmap

variable {first second input input' : String}

theorem criteria_hasBuiltInRules : Criteria.grammar.HasBuiltInRules := by
  intro field member rule ruleMember
  rcases Criteria.exists_measure member with ⟨measure, rfl⟩
  rw [List.mem_singleton.mp ruleMember]
  trivial

theorem hasBuiltInRules : grammar.HasBuiltInRules := by
  intro field member rule ruleMember
  rcases exists_part member with ⟨part, rfl⟩
  have builtIn : ∀ rule ∈ part.rules, rule.IsBuiltIn := by
    cases part <;> simp [Part.rules, Rule.IsBuiltIn]
  exact builtIn rule ruleMember

/-- What two inputs that differ in a pair of quotation marks are read as: both are refused for the
same reason, both give the same search and leave the pair over, or the two searches differ in one
text, which is the text in the pair. -/
inductive ReadAlike (first second : String) :
    Except Failure (Outcome Search) → Except Failure (Outcome Search) → Prop where
  | refused (error : CommandError) {leftover leftover' : String}
      (left : leftover = leftover' ∨ SameAround first second leftover leftover') :
      ReadAlike first second (.error ⟨error, leftover⟩) (.error ⟨error, leftover'⟩)
  | unchanged (search : Search) {leftover leftover' : String}
      (left : SameAround first second leftover leftover') :
      ReadAlike first second (.ok ⟨search, leftover⟩) (.ok ⟨search, leftover'⟩)
  | captured (part : Part) (kind : part.kind = .text true) (search : Search)
      {search' search'' : Search} (leftover : String)
      (puts : part.put (.text (String.ofList (trim first.toList))) search = .ok search')
      (puts' : part.put (.text (String.ofList (trim second.toList))) search = .ok search'') :
      ReadAlike first second (.ok ⟨search', leftover⟩) (.ok ⟨search'', leftover⟩)

/-- Searches that are filled from captures of which the only text of one field differs. -/
theorem fillWith_alike {captures captures' : Captures} {part : Part} (kind : part.kind = .text true)
    {text text' : String} (own : captures.textsOf part.field = [text])
    (own' : captures'.textsOf part.field = [text'])
    (others : ∀ name, name ≠ part.field → captures.textsOf name = captures'.textsOf name)
    (exact' : captures.has "exact" = captures'.has "exact") (playcount : Option Filter)
    (search : Search) :
    part.put (.text text) (search.fillWith captures playcount) =
        .ok (search.fillWith captures playcount) ∧
      part.put (.text text') (search.fillWith captures playcount) =
        .ok (search.fillWith captures' playcount) := by
  have username := others "username"
  have query := others "query"
  have artist := others "artist"
  have title := others "title"
  cases part with
  | exact | playcount => cases kind
  | username | query | artist | title =>
      simp only [Part.field] at own own' username query artist title
      simp_all [fillWith, Part.put, FieldValue.requireText, bind, Except.bind, pure,
        Except.pure]

/-- The rules allow every text once, so a captured one is the only one of its field. -/
theorem textsOf_self {part : Part} (kind : part.kind = .text true)
    {before after : List (String × FieldValue)} {text : String}
    (entries : (grammar.captures input).map Capture.entry =
      before ++ (part.field, .text text) :: after)
    (within : WithinRules (grammar.captures input)) :
    (grammar.captures input).textsOf part.field = [text] := by
  have captured : text ∈ (grammar.captures input).textsOf part.field := by
    apply List.mem_filterMap.mpr
    refine ⟨.text text, ?_, rfl⟩
    rw [Captures.valuesOf_self entries]
    exact List.mem_append_right _ List.mem_cons_self
  have once : part.limit = 1 := by
    cases part with
    | exact | playcount => cases kind
    | username | query | artist | title => rfl
  have few := within.few part
  rw [once, countOf_text kind] at few
  have single := Nat.le_antisymm few (List.length_pos_of_mem captured)
  rcases List.length_eq_one_iff.mp single with ⟨only, texts⟩
  rw [texts] at captured ⊢
  rw [List.mem_singleton.mp captured]

/-- The second phase on two inputs that differ in a pair of quotation marks. -/
theorem fill_alike (firstPlain : '"' ∉ first.toList) (secondPlain : '"' ∉ second.toList)
    (around : SameAround first second input input') (search : Search) :
    ReadAlike first second (grammar.fill (Part.all.map Part.setter) search input)
      (grammar.fill (Part.all.map Part.setter) search input') := by
  have alike := isPlain.isQuoteFree.capturesAlike firstPlain secondPlain around
  have fields := alike.fields_eq
  cases alike with
  | leftOver entries leftover =>
      rcases hasBuiltInRules.fill_congr entries (Part.all.map Part.setter) search with
        ⟨error, refused, refused'⟩ | ⟨filled, done, done'⟩
      · rw [refused, refused']
        exact .refused error (Or.inr leftover)
      · rw [done, done']
        exact .unchanged filled leftover
  | captured before after field member kind entries entries' leftover =>
      rcases exists_part member with ⟨part, rfl⟩
      have others {name : String} (different : name ≠ part.field) :=
        Captures.valuesOf_of_ne entries entries' different
      have notPlaycount : "playcount" ≠ part.field := by
        cases part with
        | exact | playcount => cases kind
        | username | query | artist | title => decide
      have bounds : (grammar.captures input).boundsOf "playcount" =
          (grammar.captures input').boundsOf "playcount" := by
        rw [Captures.boundsOf, others notPlaycount]
        rfl
      have sameRejection := hasBuiltInRules.rejection?_congr fields
      rw [fill_eq, fill_eq, sameRejection, bounds, leftover]
      cases rejection : grammar.rejection? (grammar.captures input') with
      | some reason => exact .refused _ (Or.inl rfl)
      | none =>
          have within' := rejection?_eq_none_iff.mp rejection
          have within := rejection?_eq_none_iff.mp (sameRejection.trans rejection)
          cases Filter.ofBounds ((grammar.captures input').boundsOf "playcount") with
          | error reason => exact .refused _ (Or.inl rfl)
          | ok filter =>
              have texts (name : String) (different : name ≠ part.field) :
                  (grammar.captures input).textsOf name = (grammar.captures input').textsOf name :=
                congrArg (List.filterMap FieldValue.text?) (others different)
              have ⟨puts, puts'⟩ := fillWith_alike kind (textsOf_self kind entries within)
                (textsOf_self kind entries' within') texts (Captures.has_congr fields "exact")
                filter search
              exact .captured part kind _ _ puts puts'

end SearchCommands.Search
