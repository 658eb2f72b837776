import ShadowCheck.Proofs.Filter.Nested

/-!
What a change of its lists does to a filter. As long as no line whitelists, more excludes
admit less, more includes and a greater depth admit more, and an excluded directory admits
nothing. A line with which no list can be made breaks this: then no exclude counts any more.
-/

namespace ShadowCheck

namespace Filter

/-- What lines say about a path; where they make no list of rules, they say the default. -/
def consult? (root : Path) (foldCase : Bool) (lines : List String) (default : Bool)
    (path : Path) : Option Bool :=
  (RuleList.ofLines? root foldCase lines).elim (some default) (·.ignores? path)

/-- A path as rules below a root see it. -/
def seen (root path : Path) : Path :=
  (RuleList.mk root false []).below path

/-- Whether some line applies to a path, or to a directory above it. -/
def Reached (root : Path) (foldCase : Bool) (lines : List String) (path : Path) : Prop :=
  ∃ line ∈ lines, ∃ rule ∈ Rule.ofLine? line, rule.Reaches foldCase (seen root path)

/-- Whether a line applies to a directory. -/
def AppliesTo (root : Path) (foldCase : Bool) (line : String) (directory : Path) : Prop :=
  ∃ names, directory.components = root.components ++ names ∧ (Rule.ofLine? line).any fun rule =>
    rule.applies foldCase true (Path.ofComponents names).bytes

theorem Reached.of_subset {root path : Path} {foldCase : Bool} {lines more : List String}
    (reached : Reached root foldCase lines path) (subset : lines ⊆ more) :
    Reached root foldCase more path := by
  obtain ⟨line, found, reaches⟩ := reached
  exact ⟨line, subset found, reaches⟩

theorem exists_mem_filterMap_iff {lines : List String} {holds : Rule → Prop} :
    (∃ rule ∈ lines.filterMap Rule.ofLine?, holds rule) ↔
      ∃ line ∈ lines, ∃ rule ∈ Rule.ofLine? line, holds rule := by
  simp only [List.mem_filterMap]
  constructor
  · rintro ⟨rule, ⟨line, found, read⟩, held⟩
    exact ⟨line, found, rule, read, held⟩
  · rintro ⟨line, found, rule, read, held⟩
    exact ⟨rule, ⟨line, found, read⟩, held⟩

theorem Plain.whitelisted {lines : List String} (plain : Plain lines) :
    ∀ rule ∈ lines.filterMap Rule.ofLine?, rule.whitelisted = false := by
  intro rule found
  obtain ⟨line, inside, read⟩ := List.mem_filterMap.mp found
  exact Bool.eq_false_iff.mpr fun whitelisted =>
    plain line inside (Rule.head?_of_whitelisted read whitelisted)

theorem filterMap_eq_nil_of_subset {lines more : List String} (subset : lines ⊆ more)
    (none : more.filterMap Rule.ofLine? = []) : lines.filterMap Rule.ofLine? = [] := by
  rw [List.filterMap_eq_nil_iff] at *
  exact fun line found => none line (subset found)

section

variable {root : Path} {foldCase : Bool} {lines more : List String} {default : Bool}

theorem consult?_nil (path : Path) : consult? root foldCase [] default path = some default := rfl

theorem consult?_of_not_usable (unusable : ¬ Usable lines) (path : Path) :
    consult? root foldCase lines default path = some default := by
  have unbuilt : RuleList.canBuild (lines.filterMap Rule.ofLine?) = false :=
    Bool.eq_false_iff.mpr unusable
  unfold consult? RuleList.ofLines?
  dsimp only
  rw [unbuilt, Bool.not_false, Bool.or_true, if_pos rfl]
  rfl

theorem ne_nil_of_subset (nonempty : lines ≠ []) (subset : lines ⊆ more) : more ≠ [] := by
  rintro rfl
  exact nonempty (List.subset_nil.mp subset)

variable (absolute : root.isAbsolute)

include absolute

theorem ofLines?_of_usable (nonempty : lines ≠ []) (usable : Usable lines) :
    RuleList.ofLines? root foldCase lines =
      some ⟨root, foldCase, lines.filterMap Rule.ofLine?⟩ := by
  have built : RuleList.canBuild (lines.filterMap Rule.ofLine?) = true := usable
  obtain ⟨top, made⟩ : ∃ top, RuleList.ofLines? root foldCase lines =
      some ⟨top, foldCase, lines.filterMap Rule.ofLine?⟩ := by
    unfold RuleList.ofLines?
    dsimp only
    rw [built, Bool.not_true, Bool.or_false, if_neg (by simpa using nonempty)]
    exact ⟨_, rfl⟩
  have same : top = root := RuleList.root_of_ofLines? absolute made
  rw [made, same]

/-- Lines that are used ignore what they reach, and answer for what is seen below the root. -/
theorem consult?_eq_some_iff (nonempty : lines ≠ []) (plain : Plain lines)
    (usable : Usable lines) {answer : Bool} {path : Path} :
    consult? root foldCase lines default path = some answer ↔
      (lines.filterMap Rule.ofLine? = [] ∨ (seen root path).isAbsolute = false) ∧
        (answer = true ↔ Reached root foldCase lines path) := by
  unfold consult?
  rw [ofLines?_of_usable absolute nonempty usable, Option.elim_some,
    RuleList.ignores?_eq_some_iff plain.whitelisted, exists_mem_filterMap_iff]
  rfl

/-- More excludes leave less: what they let pass, fewer of them let pass. -/
theorem consult?_eq_false_of_subset (subset : lines ⊆ more) (plain : Plain more)
    (keepsUsable : lines ≠ [] → Usable lines → Usable more) {path : Path}
    (passed : consult? root foldCase more false path = some false) :
    consult? root foldCase lines false path = some false := by
  by_cases nonempty : lines = []
  · rw [nonempty, consult?_nil]
  by_cases usable : Usable lines
  · have more_nonempty := ne_nil_of_subset nonempty subset
    obtain ⟨answered, unreached⟩ :=
      (consult?_eq_some_iff absolute more_nonempty plain (keepsUsable nonempty usable)).mp passed
    refine (consult?_eq_some_iff absolute nonempty (plain.of_subset subset) usable).mpr
      ⟨answered.imp_left (filterMap_eq_nil_of_subset subset), ?_⟩
    exact ⟨fun never => absurd never Bool.false_ne_true,
      fun reached => unreached.mpr (reached.of_subset subset)⟩
  · exact consult?_of_not_usable usable path

/-- More includes take more, once there are some. -/
theorem consult?_eq_true_of_subset (nonempty : lines ≠ []) (subset : lines ⊆ more)
    (plain : Plain more) {path : Path}
    (taken : consult? root foldCase lines true path = some true) :
    consult? root foldCase more true path = some true := by
  by_cases usable : Usable more
  · have more_nonempty := ne_nil_of_subset nonempty subset
    obtain ⟨answered, reached⟩ := (consult?_eq_some_iff absolute nonempty
      (plain.of_subset subset) (usable.of_subset subset)).mp taken
    have reached := reached.mp rfl
    obtain ⟨line, found, rule, read, -⟩ := id reached
    have ruled : lines.filterMap Rule.ofLine? ≠ [] :=
      List.ne_nil_of_mem (List.mem_filterMap.mpr ⟨line, found, read⟩)
    exact (consult?_eq_some_iff absolute more_nonempty plain usable).mpr
      ⟨.inr (answered.resolve_left ruled), fun _ => reached.of_subset subset, fun _ => rfl⟩
  · exact consult?_of_not_usable usable path

/-- Only which lines there are counts. -/
theorem consult?_congr (plain : Plain lines) (subset : lines ⊆ more) (superset : more ⊆ lines)
    (path : Path) :
    consult? root foldCase more default path = consult? root foldCase lines default path := by
  by_cases nonempty : lines = []
  · rw [nonempty] at superset ⊢
    rw [List.subset_nil.mp superset]
  by_cases usable : Usable lines
  · have more_nonempty := ne_nil_of_subset nonempty subset
    have rules : more.filterMap Rule.ofLine? = [] ↔ lines.filterMap Rule.ofLine? = [] :=
      ⟨filterMap_eq_nil_of_subset subset, filterMap_eq_nil_of_subset superset⟩
    have reached : Reached root foldCase more path ↔ Reached root foldCase lines path :=
      ⟨(·.of_subset superset), (·.of_subset subset)⟩
    apply Option.ext
    intro answer
    rw [consult?_eq_some_iff absolute more_nonempty (plain.of_subset superset)
        (usable.of_subset superset),
      consult?_eq_some_iff absolute nonempty plain usable, rules, reached]
  · rw [consult?_of_not_usable usable,
      consult?_of_not_usable fun kept => usable (kept.of_subset subset)]

end

/-- A rule that applies to a directory reaches every path below. -/
theorem Reached.of_appliesTo {root directory path : Path} {foldCase : Bool}
    {lines : List String} {line : String} (rootCanonical : root.Canonical) (found : line ∈ lines)
    (applies : AppliesTo root foldCase line directory) (canonical : path.Canonical)
    {rest : List Component} (nonempty : rest ≠ [])
    (below : path.components = directory.components ++ rest) :
    Reached root foldCase lines path := by
  obtain ⟨names, inside, applies⟩ := applies
  obtain ⟨rule, read, applies⟩ := (Option.any_eq_true _ _).mp applies
  rw [inside, List.append_assoc] at below
  have proper : ∀ name ∈ names ++ rest, name.Proper := by
    obtain ⟨top, spelled, -⟩ := rootCanonical.settled
    rw [spelled, List.cons_append] at below
    intro name inside
    exact canonical.settled.proper below name (List.mem_append_right top inside)
  have sight : seen root path = Path.ofComponents (names ++ rest) :=
    RuleList.below_of_components rootCanonical canonical (by simp [nonempty]) below proper
  refine ⟨line, found, rule, read, .inr ⟨Path.ofComponents names, ?_, applies⟩⟩
  rw [sight]
  exact ofComponents_mem_ancestors proper nonempty

end Filter

namespace FileFilter

open ShadowCheck.Filter

section

variable {root path : Path} {selection : Selection} {caseSensitive : Bool}

theorem admits_iff :
    (make root selection caseSensitive).admits path ↔
      ((make root selection caseSensitive).allowsPlace path ∧
        (make root selection caseSensitive).allowsExtension path) ∧
      consult? root (!caseSensitive) selection.excludes false path = some false ∧
      consult? root (!caseSensitive) selection.includes true path = some true := by
  have excluded : (make root selection caseSensitive).excludes.elim (some false)
      (·.ignores? path) = consult? root (!caseSensitive) selection.excludes false path := rfl
  have included : (make root selection caseSensitive).includes.elim (some true)
      (·.ignores? path) = consult? root (!caseSensitive) selection.includes true path := rfl
  unfold admits admits?
  rw [excluded, included, beq_iff_eq, ← Bool.not_and]
  cases allowed : (make root selection caseSensitive).allowsPlace path &&
      (make root selection caseSensitive).allowsExtension path with
  | false =>
      rw [← Bool.and_eq_true, allowed]
      simp
  | true =>
      rw [← Bool.and_eq_true, allowed]
      rcases consult? root (!caseSensitive) selection.excludes false path with _ | _ | _ <;> simp

theorem admits?_congr {other : Selection} (extensions : other.extensions = selection.extensions)
    (depth : other.depth = selection.depth)
    (excludes : consult? root (!caseSensitive) other.excludes false path =
      consult? root (!caseSensitive) selection.excludes false path)
    (includes : consult? root (!caseSensitive) other.includes true path =
      consult? root (!caseSensitive) selection.includes true path) :
    (make root other caseSensitive).admits? path =
      (make root selection caseSensitive).admits? path := by
  unfold consult? at excludes includes
  unfold admits? allowsPlace allowsExtension make
  dsimp only
  rw [extensions, depth, excludes, includes]

theorem allowsPlace_of_deeper {depth : Option Nat}
    (deeper : ∀ bound ∈ depth, ∃ old ∈ selection.depth, old ≤ bound)
    (allowed : (make root selection caseSensitive).allowsPlace path) :
    (make root { selection with depth } caseSensitive).allowsPlace path := by
  unfold allowsPlace at *
  dsimp only [make] at *
  split
  · rename_i outside
    rw [outside] at allowed
    exact allowed
  · rename_i below dropped
    rw [dropped, Bool.and_eq_true] at allowed
    refine Bool.and_eq_true _ _ ▸ ⟨allowed.1, ?_⟩
    rw [Option.all_eq_true] at *
    intro bound found
    obtain ⟨old, known, le⟩ := deeper bound found
    have := allowed.2 old known
    simp only [decide_eq_true_eq] at *
    omega

end

/--
Filters as long as no line whitelists. A settled path is always decided. Of a list of lines
only counts which lines there are. More excludes never admit a path, unless a list can be
made of the old ones but not of all of them; more includes, where there are some, never
reject one, and neither does a greater depth. A directory that an exclude matches has nothing
admitted below it, as long as a list can be made of the excludes; where none can, they
exclude nothing.
-/
theorem admits_of_plain {root : Path} (canonical : root.Canonical) (selection : Selection)
    (caseSensitive : Bool) (plainExcludes : Plain selection.excludes)
    (plainIncludes : Plain selection.includes) :
    (∀ path : Path, path.Canonical →
      ∃ answer, (make root selection caseSensitive).admits? path = some answer) ∧
    (∀ excludes, selection.excludes ⊆ excludes → excludes ⊆ selection.excludes →
      ∀ path, (make root { selection with excludes } caseSensitive).admits? path =
        (make root selection caseSensitive).admits? path) ∧
    (∀ includes, selection.includes ⊆ includes → includes ⊆ selection.includes →
      ∀ path, (make root { selection with includes } caseSensitive).admits? path =
        (make root selection caseSensitive).admits? path) ∧
    (∀ excludes, selection.excludes ⊆ excludes → Plain excludes →
      (selection.excludes ≠ [] → Usable selection.excludes → Usable excludes) →
      ∀ path, (make root { selection with excludes } caseSensitive).admits path →
        (make root selection caseSensitive).admits path) ∧
    (∀ includes, selection.includes ≠ [] → selection.includes ⊆ includes → Plain includes →
      ∀ path, (make root selection caseSensitive).admits path →
        (make root { selection with includes } caseSensitive).admits path) ∧
    (∀ depth : Option Nat, (∀ bound ∈ depth, ∃ old ∈ selection.depth, old ≤ bound) →
      ∀ path, (make root selection caseSensitive).admits path →
        (make root { selection with depth } caseSensitive).admits path) ∧
    (Usable selection.excludes → ∀ line ∈ selection.excludes, ∀ directory,
      AppliesTo root (!caseSensitive) line directory →
      ∀ path : Path, path.Canonical → path.startsWith directory → ¬ path.Same directory →
        ¬ (make root selection caseSensitive).admits path) ∧
    (¬ Usable selection.excludes →
      ∀ path, (make root selection caseSensitive).admits? path =
        (make root { selection with excludes := [] } caseSensitive).admits? path) := by
  have absolute := canonical.settled.isAbsolute
  refine ⟨?decided, ?excludes, ?includes, ?excluding, ?including, ?deeper, ?covered, ?unused⟩
  case decided => exact fun path => exists_admits? canonical selection caseSensitive
  case excludes =>
    intro excludes subset superset path
    exact admits?_congr rfl rfl (consult?_congr absolute plainExcludes subset superset path) rfl
  case includes =>
    intro includes subset superset path
    exact admits?_congr rfl rfl rfl (consult?_congr absolute plainIncludes subset superset path)
  case excluding =>
    intro excludes subset plain usable path admitted
    obtain ⟨allowed, passed, taken⟩ := admits_iff.mp admitted
    exact admits_iff.mpr
      ⟨allowed, consult?_eq_false_of_subset absolute subset plain usable passed, taken⟩
  case including =>
    intro includes nonempty subset plain path admitted
    obtain ⟨allowed, passed, taken⟩ := admits_iff.mp admitted
    exact admits_iff.mpr
      ⟨allowed, passed, consult?_eq_true_of_subset absolute nonempty subset plain taken⟩
  case deeper =>
    intro depth deeper path admitted
    obtain ⟨⟨place, extension⟩, passed, taken⟩ := admits_iff.mp admitted
    exact admits_iff.mpr ⟨⟨allowsPlace_of_deeper deeper place, extension⟩, passed, taken⟩
  case covered =>
    intro usable line found directory applies path canonicalPath below other admitted
    obtain ⟨rest, components⟩ := (Path.startsWith_iff path directory).mp below
    have nonempty : rest ≠ [] := by
      rintro rfl
      rw [List.append_nil] at components
      exact other components
    have reached := Reached.of_appliesTo canonical found applies canonicalPath nonempty components
    obtain ⟨-, passed, -⟩ := admits_iff.mp admitted
    have unreached := ((consult?_eq_some_iff absolute (List.ne_nil_of_mem found) plainExcludes
      usable).mp passed).2
    exact Bool.false_ne_true (unreached.mpr reached)
  case unused =>
    intro unusable path
    have unused : consult? root (!caseSensitive) selection.excludes false path = some false :=
      consult?_of_not_usable unusable path
    have emptied : consult? root (!caseSensitive) [] false path = some false := consult?_nil path
    exact admits?_congr rfl rfl (unused.trans emptied.symm) rfl

theorem admits_of_plain_sources :
    let root : Path := ⟨"/root"⟩
    let sources : Selection := ⟨[".ts"], ["node_modules", "dist"], ["*.ts"], some 1⟩
    let filter := fun selection => make root selection true
    (∃ answer, (filter sources).admits? ⟨"/root/a.ts"⟩ = some answer) ∧
      (filter { sources with excludes := ["dist", "node_modules", "dist"] }).admits?
          ⟨"/root/a.ts"⟩ =
        (filter sources).admits? ⟨"/root/a.ts"⟩ ∧
      (filter { sources with includes := ["*.ts", "*.ts"] }).admits? ⟨"/root/a.ts"⟩ =
        (filter sources).admits? ⟨"/root/a.ts"⟩ ∧
      (filter sources).admits ⟨"/root/a.ts"⟩ ∧
      (filter { sources with includes := ["*.js", "*.ts"] }).admits ⟨"/root/a.ts"⟩ ∧
      (filter { sources with depth := none }).admits ⟨"/root/a.ts"⟩ ∧
      ¬ (filter sources).admits ⟨"/root/dist/a.ts"⟩ ∧
      (filter ⟨[], ["dist", braced 250], [], none⟩).admits? ⟨"/root/dist/a.ts"⟩ =
        (filter ⟨[], [], [], none⟩).admits? ⟨"/root/dist/a.ts"⟩ := by
  intro root sources filter
  have canonical (path : Path) : (⟨"/"⟩ : Path).resolve path = path → path.Canonical :=
    (Path.resolve_eq_self_iff (by decide +kernel) path).mp
  have rootCanonical : root.Canonical := canonical root (by decide +kernel)
  have deep : ¬ Usable ["dist", braced 250] :=
    not_usable_of_braced_mem (Nat.le_refl 250) (by simp)
  obtain ⟨decided, excludes, includes, excluding, including, deeper, covered, -⟩ :=
    admits_of_plain rootCanonical sources true (by decide +kernel) (by decide +kernel)
  obtain ⟨-, -, -, -, -, -, -, unused⟩ :=
    admits_of_plain rootCanonical ⟨[], ["dist", braced 250], [], none⟩ true
      (List.forall_mem_cons.mpr ⟨by decide +kernel, plain_braced 250⟩) (by decide +kernel)
  have admitted : (filter sources).admits ⟨"/root/a.ts"⟩ :=
    excluding ["node_modules", "dist", "build"] (by simp [sources]) (by decide +kernel)
      (fun _ _ => by decide +kernel) _ (by decide +kernel)
  have inside : AppliesTo root false "dist" ⟨"/root/dist"⟩ :=
    ⟨[.name "dist"], by decide +kernel, by decide +kernel⟩
  refine ⟨decided _ (canonical _ (by decide +kernel)), ?_, ?_, admitted, ?_, ?_, ?_, unused deep _⟩
  · exact excludes _ (by simp [sources]) (by simp [sources]) _
  · exact includes _ (by simp [sources]) (by simp [sources]) _
  · exact including _ (by simp [sources]) (by simp [sources]) (by decide +kernel) _ admitted
  · exact deeper none (by simp) _ admitted
  · exact covered (by decide +kernel) "dist" (by simp [sources]) _ inside _
      (canonical _ (by decide +kernel)) (by decide +kernel) (by decide +kernel)

/-- With a line that is nested too deep, a directory that was excluded is not any more. -/
theorem admits_of_braced_exclude :
    let root : Path := ⟨"/root"⟩
    let path : Path := ⟨"/root/node_modules/a.ts"⟩
    root.Canonical ∧ path.Canonical ∧ Plain ["node_modules", braced 250] ∧
      AppliesTo root false "node_modules" ⟨"/root/node_modules"⟩ ∧
      ¬ (make root ⟨[], ["node_modules"], [], none⟩ true).admits path ∧
      (make root ⟨[], ["node_modules", braced 250], [], none⟩ true).admits path := by
  intro root path
  have canonical (path : Path) : (⟨"/"⟩ : Path).resolve path = path → path.Canonical :=
    (Path.resolve_eq_self_iff (by decide +kernel) path).mp
  have deep : ¬ Usable ["node_modules", braced 250] :=
    not_usable_of_braced_mem (Nat.le_refl 250) (by simp)
  refine ⟨canonical root (by decide +kernel), canonical path (by decide +kernel),
    List.forall_mem_cons.mpr ⟨by decide +kernel, plain_braced 250⟩,
    ⟨[.name "node_modules"], by decide +kernel, by decide +kernel⟩, by decide +kernel, ?_⟩
  exact admits_iff.mpr ⟨⟨by decide +kernel, by decide +kernel⟩, consult?_of_not_usable deep path,
    consult?_nil path⟩

end FileFilter

end ShadowCheck
