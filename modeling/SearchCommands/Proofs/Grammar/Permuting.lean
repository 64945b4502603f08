import SearchCommands.Proofs.Grammar.Alike
import SearchCommands.Proofs.Grammar.Preference
import SearchCommands.Proofs.Search.Words

/-!
# The order of declarations

The fields are tried in the order of declaration, those without aliases last.  In an unambiguous
grammar at most one field with aliases occurs at a place, so that their order makes no difference
there (`Grammar.tokenAt?_permuted`), and then none to any scan.  What remains of the order is which
of the fields without aliases is tried first, and which of the broken rules is reported.
-/

namespace SearchCommands

/-- The first result is the same in any order if only one element has a result. -/
theorem findSome?_of_perm {α β : Type} {found : α → Option β} {elements elements' : List α}
    (same : elements.Perm elements')
    (unique : ∀ first ∈ elements, ∀ second ∈ elements, found first ≠ none → found second ≠ none →
      first = second) : elements.findSome? found = elements'.findSome? found := by
  cases result : elements.findSome? found with
  | none =>
      rw [List.findSome?_eq_none_iff] at result
      refine (List.findSome?_eq_none_iff.mpr fun element member => ?_).symm
      exact result element (same.mem_iff.mpr member)
  | some value =>
      rcases List.exists_of_findSome?_eq_some result with ⟨first, firstMember, firstFound⟩
      cases result' : elements'.findSome? found with
      | none =>
          have nothing := List.findSome?_eq_none_iff.mp result' first (same.mem_iff.mp firstMember)
          rw [firstFound] at nothing
          cases nothing
      | some value' =>
          rcases List.exists_of_findSome?_eq_some result' with ⟨second, secondMember, secondFound⟩
          have equal : first = second := unique first firstMember second
            (same.mem_iff.mpr secondMember) (by simp [firstFound]) (by simp [secondFound])
          rw [← firstFound, equal, secondFound]

/-- The same captures and leftover, and the same value for every field, in whatever order the fields
are listed. -/
structure Reading.Agrees (reading reading' : Reading) : Prop where
  captures : reading.captures = reading'.captures
  leftover : reading.leftover = reading'.leftover
  value? : ∀ name, reading.value? name = reading'.value? name

namespace Field

/-- A field is sound in every declaration that has the fields to which its rules refer. -/
theorem IsSound.mono {field : Field} {all all' : List Field} (sound : field.IsSound all)
    (inside : ∀ other ∈ all, other ∈ all') : field.IsSound all' where
  isName := sound.isName
  proper := sound.proper
  known rule ruleMember name reference := by
    rcases sound.known rule ruleMember name reference with ⟨other, member, same⟩
    exact ⟨other, inside other member, same⟩

end Field

namespace Grammar

variable {grammar other : Grammar} {fields : List Field}

/-- Declarations without a mistake are without one in every order. -/
theorem exists_ofFields_permuted (same : fields.Perm grammar.fields) :
    ∃ other, Grammar.ofFields fields = .ok other ∧ other.fields = fields := by
  apply exists_ofFields
  · intro field member
    exact (isSound (same.mem_iff.mp member)).mono fun _ => same.mem_iff.mpr
  · exact (same.map Field.name).nodup_iff.mpr grammar.names_nodup

/-- Grammars that find the same at every place take the same tokens. -/
theorem Scans.congr (same : ∀ cursor, other.tokenAt? cursor = grammar.tokenAt? cursor)
    {cursor : Cursor} {tokens : List Token} (scans : grammar.Scans cursor tokens) :
    other.Scans cursor tokens := by
  induction scans with
  | done before => exact .done before
  | pass nothing _ ih => exact .pass (by rwa [same]) ih
  | take found outside _ ih => exact .take (by rwa [same]) outside ih

section Permuted

variable (same : other.fields.Perm grammar.fields)
  (kept : other.fields.filter Field.isPositional = grammar.fields.filter Field.isPositional)

include same

/-- Rejecting captures does not depend on the order of declaration, but the reason may. -/
theorem rejection?_isSome_permuted (captures : Captures) :
    (other.rejection? captures).isSome = (grammar.rejection? captures).isSome := by
  have accepts : other.rejection? captures = none ↔ grammar.rejection? captures = none := by
    simp only [rejection?_eq_none_iff, same.mem_iff]
  rw [Bool.eq_iff_iff, Option.isSome_iff_ne_none, Option.isSome_iff_ne_none]
  exact not_congr accepts

/-- The value of a field does not depend on where the field is declared. -/
theorem lookup_values_permuted (captures : Captures) (name : String) :
    (other.values captures).lookup name = (grammar.values captures).lookup name := by
  have each (grammar : Grammar) : (grammar.values captures).lookup name =
      if name ∈ grammar.fields.map Field.name then
        some (FieldValue.ofCaptured (captures.valuesOf name)) else none := by
    unfold Grammar.values
    induction grammar.fields with
    | nil => rfl
    | cons field rest ih =>
        rw [List.map_cons, List.lookup_cons, ih, List.map_cons]
        by_cases own : name = field.name
        · simp [own]
        · simp [own, beq_eq_false_iff_ne.mpr own]
  simp only [each, (same.map Field.name).mem_iff]

include kept

/-- At every place the same token is found. -/
theorem tokenAt?_permuted (unambiguous : grammar.IsUnambiguous) (cursor : Cursor) :
    other.tokenAt? cursor = grammar.tokenAt? cursor := by
  have aliased : ((other.fields.filter fun field => !field.isPositional).findSome?
        fun field => field.tokenAt? cursor) =
      (grammar.fields.filter fun field => !field.isPositional).findSome?
        fun field => field.tokenAt? cursor := by
    apply findSome?_of_perm (same.filter _)
    intro first firstMember second secondMember firstFound secondFound
    rcases List.mem_filter.mp firstMember with ⟨inFirst, firstAliased⟩
    rcases List.mem_filter.mp secondMember with ⟨inSecond, secondAliased⟩
    rcases Option.ne_none_iff_exists'.mp firstFound with ⟨token, found⟩
    rcases Option.ne_none_iff_exists'.mp secondFound with ⟨token', found'⟩
    exact unambiguous.field_eq_of_tokenAt? (same.mem_iff.mp inFirst) (same.mem_iff.mp inSecond)
      (by simpa using firstAliased) (by simpa using secondAliased) found found'
  rw [tokenAt?_eq_findSome?, tokenAt?_eq_findSome?, tried, tried, List.findSome?_append,
    List.findSome?_append, aliased, kept]

/-- The same tokens are taken from every input. -/
theorem tokens_permuted (unambiguous : grammar.IsUnambiguous) (input : String) :
    other.tokens input = grammar.tokens input :=
  tokens_eq_iff.mpr ((grammar.scans_tokens input).congr (tokenAt?_permuted same kept unambiguous))

end Permuted

/-- Unambiguous declarations can be made in any order that keeps the order of the fields without
aliases: the same is captured and left over of every input, the input is read or refused in both
orders, and every field has the same value.  Only the reported reason may be another. -/
theorem read_permuted (unambiguous : grammar.IsUnambiguous) (same : fields.Perm grammar.fields)
    (kept : fields.filter Field.isPositional = grammar.fields.filter Field.isPositional) :
    ∃ other, Grammar.ofFields fields = .ok other ∧ ∀ input,
      other.captures input = grammar.captures input ∧
      other.leftover input = grammar.leftover input ∧
      ResultsAlike (fun failure failure' => failure.leftover = failure'.leftover) Reading.Agrees
        (other.read input) (grammar.read input) := by
  rcases exists_ofFields_permuted same with ⟨other, declared, rfl⟩
  refine ⟨other, declared, fun input => ?_⟩
  have tokens := tokens_permuted same kept unambiguous input
  have captures : other.captures input = grammar.captures input := by
    rw [Grammar.captures, Grammar.captures, tokens]
  have leftover : other.leftover input = grammar.leftover input := by
    rw [Grammar.leftover, Grammar.leftover, tokens]
  refine ⟨captures, leftover, ?_⟩
  have alike := rejection?_isSome_permuted same (grammar.captures input)
  rw [read, read, captures, leftover]
  cases rejected : grammar.rejection? (grammar.captures input) with
  | some reason =>
      rcases Option.isSome_iff_exists.mp (alike.trans (by simp [rejected])) with
        ⟨reason', rejected'⟩
      simp only [rejected']
      exact .failed rfl
  | none =>
      rw [rejected, Option.isSome_none, Option.isSome_eq_false_iff, Option.isNone_iff_eq_none]
        at alike
      simp only [alike]
      exact .done ⟨rfl, rfl, lookup_values_permuted same (grammar.captures input)⟩

/-- Declared in the opposite order, the fields of a search capture the same of `mrekk -q x -a y`
and refuse it too. -/
theorem read_permuted_reverse :
    ∃ other, Grammar.ofFields Search.grammar.fields.reverse = .ok other ∧
      other.captures "mrekk -q x -a y" = [⟨"username", 0, 5, .text "mrekk"⟩,
        ⟨"query", 5, 10, .text "x"⟩, ⟨"artist", 10, 15, .text "y"⟩] ∧
      ∃ failure, other.read "mrekk -q x -a y" = .error failure ∧ failure.leftover = "" := by
  rcases read_permuted Search.isPlain.isUnambiguous (List.reverse_perm Search.grammar.fields) rfl
    with ⟨other, declared, each⟩
  rcases each "mrekk -q x -a y" with ⟨captures, _, alike⟩
  have own : Search.grammar.captures "mrekk -q x -a y" = [⟨"username", 0, 5, .text "mrekk"⟩,
      ⟨"query", 5, 10, .text "x"⟩, ⟨"artist", 10, 15, .text "y"⟩] := by decide +kernel
  have refused : Search.grammar.read "mrekk -q x -a y" =
      .error ⟨.rejected (.conflict "query" "artist"), ""⟩ := by
    apply read_eq_error_iff.mpr
    exact ⟨.conflict "query" "artist", by decide +kernel, by decide +kernel⟩
  rw [refused] at alike
  refine ⟨other, declared, captures.trans own, ?_⟩
  generalize other.read "mrekk -q x -a y" = result at alike ⊢
  cases alike with
  | @failed failure _ left => exact ⟨failure, rfl, left⟩

end Grammar

end SearchCommands
