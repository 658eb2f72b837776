import ShadowCheck.Proofs.Filter.Below

/-!
Lists of ignore rules of which none whitelists. Such a list ignores a path if one of its
rules applies to the path, or to a directory above it. Neither order nor repetition matters
then, more rules ignore more, and an ignored directory takes with it all that is below.
-/

namespace ShadowCheck.Filter

/-- Whether no line of a list whitelists. -/
def Plain (lines : List String) : Prop :=
  ∀ line ∈ lines, line.toList.head? ≠ some '!'

instance (lines : List String) : Decidable (Plain lines) :=
  inferInstanceAs (Decidable (∀ line ∈ lines, line.toList.head? ≠ some '!'))

/-- Whether a list can be made of the rules of lines; where it cannot, no line counts. -/
def Usable (lines : List String) : Prop :=
  RuleList.canBuild (lines.filterMap Rule.ofLine?)

instance (lines : List String) : Decidable (Usable lines) :=
  inferInstanceAs (Decidable (RuleList.canBuild (lines.filterMap Rule.ofLine?) = true))

theorem RuleList.canBuild_of_subset {rules more : List Rule} (built : canBuild more)
    (subset : rules ⊆ more) : canBuild rules := by
  unfold canBuild at *
  rw [Bool.not_eq_true', List.any_eq_false] at *
  exact fun rule found => built rule (subset found)

theorem Plain.of_subset {lines more : List String} (plain : Plain more) (subset : lines ⊆ more) :
    Plain lines :=
  fun line found => plain line (subset found)

theorem Usable.of_subset {lines more : List String} (usable : Usable more)
    (subset : lines ⊆ more) : Usable lines :=
  RuleList.canBuild_of_subset usable (List.filterMap_subset Rule.ofLine? subset)

namespace Rule

theorem trimLine_prefix (line : List Char) : trimLine line <+: line := by
  unfold trimLine
  split
  · exact List.prefix_refl line
  · unfold Text.trimRight
    rw [← List.reverse_suffix, List.reverse_reverse]
    exact List.dropWhile_suffix _

/-- Only a line with the mark in front whitelists. -/
theorem head?_of_whitelisted {line : String} {rule : Rule} (read : ofLine? line = some rule)
    (whitelisted : rule.whitelisted = true) : line.toList.head? = some '!' := by
  unfold ofLine? at read
  split at read
  · cases read
  dsimp only at read
  split at read
  · cases read
  obtain ⟨parts, -, rfl⟩ := Option.map_eq_some_iff.mp read
  have front : (trimLine line.toList).head? = some '!' := by
    generalize trimLine line.toList = text at whitelisted
    revert whitelisted
    fun_cases readFront text <;> simp
  obtain ⟨rest, whole⟩ := trimLine_prefix line.toList
  rw [← whole, List.head?_append, front]
  rfl

/-- Whether a rule applies to a path, or to a directory above it. -/
def Reaches (rule : Rule) (foldCase : Bool) (path : Path) : Prop :=
  rule.applies foldCase false path.bytes = true ∨
    ∃ directory ∈ RuleList.ancestors path,
      rule.applies foldCase true directory.bytes = true

end Rule

namespace RuleList

variable {list : RuleList} (plain : ∀ rule ∈ list.rules, rule.whitelisted = false)

include plain

theorem verdict?_eq_some_iff {isDirectory answer : Bool} {path : Path} :
    list.verdict? isDirectory path = some answer ↔ answer = true ∧ ∃ rule ∈ list.rules,
      rule.applies list.foldCase isDirectory path.bytes = true := by
  unfold verdict?
  rw [Option.map_eq_some_iff]
  constructor
  · rintro ⟨rule, found, rfl⟩
    have inside := List.mem_reverse.mp (List.mem_of_find?_eq_some found)
    rw [plain rule inside]
    exact ⟨rfl, rule, inside, by simpa using List.find?_some found⟩
  · rintro ⟨rfl, rule, inside, applies⟩
    have some : (list.rules.reverse.find? fun rule =>
        rule.applies list.foldCase isDirectory path.bytes).isSome := by
      rw [List.find?_isSome]
      exact ⟨rule, List.mem_reverse.mpr inside, applies⟩
    obtain ⟨first, found⟩ := Option.isSome_iff_exists.mp some
    refine ⟨first, found, ?_⟩
    rw [plain first (List.mem_reverse.mp (List.mem_of_find?_eq_some found))]
    rfl

theorem findSome?_verdict?_eq_some_iff {answer : Bool} {directories : List Path} :
    directories.findSome? (list.verdict? true) = some answer ↔
      answer = true ∧ ∃ directory ∈ directories, ∃ rule ∈ list.rules,
        rule.applies list.foldCase true directory.bytes = true := by
  constructor
  · intro found
    obtain ⟨directory, inside, verdict⟩ := List.exists_of_findSome?_eq_some found
    obtain ⟨rfl, applies⟩ := (verdict?_eq_some_iff plain).mp verdict
    exact ⟨rfl, directory, inside, applies⟩
  · rintro ⟨rfl, directory, inside, applies⟩
    have verdict := (verdict?_eq_some_iff plain).mpr ⟨rfl, applies⟩
    have some : (directories.findSome? (list.verdict? true)).isSome := by
      rw [List.findSome?_isSome_iff]
      exact ⟨directory, inside, by rw [verdict]; rfl⟩
    obtain ⟨first, found⟩ := Option.isSome_iff_exists.mp some
    obtain ⟨other, -, firstVerdict⟩ := List.exists_of_findSome?_eq_some found
    rw [found, ((verdict?_eq_some_iff plain).mp firstVerdict).1]

/-- The first level with a verdict decides, and the verdicts of all levels are the same. -/
theorem decided_iff (path : Path) :
    ((list.verdict? false path).or ((ancestors path).findSome? (list.verdict? true))).getD false =
      true ↔ ∃ rule ∈ list.rules, rule.Reaches list.foldCase path := by
  constructor
  · intro decided
    cases here : list.verdict? false path with
    | some answer =>
        obtain ⟨-, rule, inside, applies⟩ := (verdict?_eq_some_iff plain).mp here
        exact ⟨rule, inside, .inl applies⟩
    | none =>
        rw [here, Option.none_or] at decided
        cases above : (ancestors path).findSome? (list.verdict? true) with
        | none =>
            rw [above] at decided
            cases decided
        | some answer =>
            obtain ⟨-, directory, found, rule, inside, applies⟩ :=
              (findSome?_verdict?_eq_some_iff plain).mp above
            exact ⟨rule, inside, .inr ⟨directory, found, applies⟩⟩
  · rintro ⟨rule, inside, applies | ⟨directory, found, applies⟩⟩
    · rw [(verdict?_eq_some_iff plain).mpr ⟨rfl, rule, inside, applies⟩]
      rfl
    · rw [(findSome?_verdict?_eq_some_iff plain).mpr ⟨rfl, directory, found, rule, inside, applies⟩]
      cases here : list.verdict? false path with
      | none => rfl
      | some answer =>
          rw [((verdict?_eq_some_iff plain).mp here).1]
          rfl

theorem ignores?_eq_some_iff {answer : Bool} {path : Path} :
    list.ignores? path = some answer ↔
      (list.rules = [] ∨ (list.below path).isAbsolute = false) ∧
        (answer = true ↔ ∃ rule ∈ list.rules, rule.Reaches list.foldCase (list.below path)) := by
  unfold ignores?
  by_cases empty : list.rules = []
  · rw [empty]
    cases answer <;> simp
  · rw [if_neg (by simpa using empty)]
    dsimp only
    cases absolute : (list.below path).isAbsolute with
    | true => simp [empty]
    | false =>
        rw [if_neg Bool.false_ne_true, Option.some.injEq, Bool.eq_iff_iff, decided_iff plain]
        simp [iff_comm]

end RuleList

/-! Directories above a path. -/

section

open ShadowCheck.Path

variable {names more : List Component}

theorem parent?_ofComponents {last : Component}
    (proper : ∀ name ∈ names ++ [last], name.Proper) :
    (ofComponents (names ++ [last])).parent? = some (ofComponents names) := by
  have text := bytes_ofComponents proper
  have nonempty : (names ++ [last]).map (·.bytes) ≠ [] := by simp
  have whole : ∀ part ∈ (names ++ [last]).map (·.bytes), slash ∉ part :=
    List.forall_mem_map.mpr fun name found => (proper name found).whole
  have parts : segments (ofComponents (names ++ [last])).bytes =
      names.map (·.bytes) ++ [last.bytes] := by
    rw [text, segments_unsegment nonempty whole, List.map_append]
    rfl
  rw [parent?_of_segments (isAbsolute_ofComponents proper) parts]
  · have front : ∀ name ∈ names, name.Proper :=
      fun name found => proper name (List.mem_append_left _ found)
    rw [← bytes_ofComponents front]
  · intro part found
    have named : part ∈ (names ++ [last]).map (·.bytes) := by
      rw [List.map_append]
      exact found
    obtain ⟨name, inside, rfl⟩ := List.mem_map.mp named
    rw [(proper name inside).segment]
    rfl

theorem ofComponents_mem_climb {count : Nat} (proper : ∀ name ∈ names ++ more, name.Proper)
    (nonempty : more ≠ []) (enough : more.length ≤ count) :
    ofComponents names ∈ RuleList.ancestors.climb count (ofComponents (names ++ more)) := by
  induction count generalizing more with
  | zero => exact absurd (List.length_eq_zero_iff.mp (Nat.le_zero.mp enough)) nonempty
  | succ count ih =>
      obtain ⟨front, last, rfl⟩ := (List.eq_nil_or_concat more).resolve_left nonempty
      rw [List.concat_eq_append, ← List.append_assoc] at *
      unfold RuleList.ancestors.climb
      rw [parent?_ofComponents proper]
      by_cases top : front = []
      · rw [top, List.append_nil]
        exact List.mem_cons_self
      · apply List.mem_cons_of_mem
        refine ih (fun name found => proper name (List.mem_append_left _ found)) top ?_
        simpa using enough

/-- The directories above a path are the front parts of its names. -/
theorem ofComponents_mem_ancestors (proper : ∀ name ∈ names ++ more, name.Proper)
    (nonempty : more ≠ []) :
    ofComponents names ∈ RuleList.ancestors (ofComponents (names ++ more)) := by
  unfold RuleList.ancestors
  rw [components_ofComponents proper]
  exact ofComponents_mem_climb proper nonempty (by simp)

end

end ShadowCheck.Filter
