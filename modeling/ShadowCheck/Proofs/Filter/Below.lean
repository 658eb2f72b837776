import ShadowCheck.Filter.FileFilter
import ShadowCheck.Proofs.Path.Order

/-!
Paths as ignore rules see them. A path in its plain spelling below the root of some rules
is seen by its names after the root, and so the rules have an answer for it.
-/

namespace ShadowCheck

namespace Path

/-- The spelling of a path begins with that of a directory above it. -/
theorem Canonical.bytes_of_components {root path : Path} (rootCanonical : root.Canonical)
    (canonical : path.Canonical) {rest : List Component} (nonempty : rest ≠ [])
    (components : path.components = root.components ++ rest) :
    ∃ between, (between = [] ∨ between = [slash]) ∧ path.bytes =
      root.bytes ++ (between ++ unsegment (rest.map (·.bytes))) := by
  obtain ⟨names, found, -⟩ := rootCanonical.settled
  have spelled : ∀ names, (ofComponents (.root :: names)).bytes =
      slash :: unsegment (names.map (·.bytes)) := fun _ => rfl
  rw [← rootCanonical.plain, ← canonical.plain, components, found, List.cons_append, spelled,
    spelled, List.map_append]
  by_cases top : names = []
  · exact ⟨[], .inl rfl, by simp [top, unsegment]⟩
  · refine ⟨[slash], .inr rfl, ?_⟩
    rw [unsegment_append (by simpa using top) (by simpa using nonempty)]
    rfl

end Path

namespace Filter.RuleList

theorem below_of_components {list : RuleList} (rootCanonical : list.root.Canonical) {path : Path}
    (canonical : path.Canonical) {rest : List Component} (nonempty : rest ≠ [])
    (components : path.components = list.root.components ++ rest)
    (proper : ∀ name ∈ rest, name.Proper) : list.below path = Path.ofComponents rest := by
  obtain ⟨between, which, text⟩ :=
    rootCanonical.bytes_of_components canonical nonempty components
  have relative := Path.isAbsolute_ofComponents proper
  have spelled := Path.bytes_ofComponents proper
  have seen := bytes_below rootCanonical.settled.isAbsolute text
  rw [Path.isAbsolute, spelled, beq_eq_false_iff_ne] at relative
  have same : (list.below path).bytes = (Path.ofComponents rest).bytes := by
    rw [seen, spelled]
    rcases which with rfl | rfl
    · exact if_neg relative
    · exact if_pos rfl
  exact congrArg Path.ofBytes same

theorem exists_ignores? {list : RuleList} (rootCanonical : list.root.Canonical) {path : Path}
    (canonical : path.Canonical) {rest : List Component} (nonempty : rest ≠ [])
    (components : path.components = list.root.components ++ rest) :
    ∃ answer, list.ignores? path = some answer := by
  have proper : ∀ name ∈ rest, name.Proper := by
    obtain ⟨names, found, -⟩ := rootCanonical.settled
    rw [found, List.cons_append] at components
    intro name inside
    exact canonical.settled.proper components name (List.mem_append_right names inside)
  have seen := below_of_components rootCanonical canonical nonempty components proper
  unfold ignores?
  split
  · exact ⟨false, rfl⟩
  · dsimp only
    rw [seen, Path.isAbsolute_ofComponents proper]
    exact ⟨_, rfl⟩

end Filter.RuleList

namespace FileFilter

theorem exists_of_allowsPlace {filter : FileFilter} {path : Path}
    (allowed : filter.allowsPlace path) :
    ∃ rest, rest ≠ [] ∧ path.components = filter.root.components ++ rest := by
  unfold allowsPlace at allowed
  split at allowed
  · cases allowed
  · rename_i rest dropped
    rw [Bool.and_eq_true] at allowed
    exact ⟨rest, by simpa using allowed.1, Path.dropFront?_eq_some dropped⟩

/-- A filter of a settled directory decides every path in plain spelling. -/
theorem exists_admits? {root : Path} (rootCanonical : root.Canonical) (selection : Selection)
    (caseSensitive : Bool) {path : Path} (canonical : path.Canonical) :
    ∃ answer, (make root selection caseSensitive).admits? path = some answer := by
  unfold admits?
  split
  · exact ⟨false, rfl⟩
  · rename_i outside
    have allowed : (make root selection caseSensitive).allowsPlace path := by
      rw [Bool.not_eq_true, Bool.or_eq_false_iff, Bool.not_eq_false'] at outside
      exact outside.1
    obtain ⟨rest, nonempty, components⟩ := exists_of_allowsPlace allowed
    have answered : ∀ lines fallback, ∃ answer,
        (Filter.RuleList.ofLines? root (!caseSensitive) lines).elim (some fallback)
          (·.ignores? path) = some answer := by
      intro lines fallback
      cases made : Filter.RuleList.ofLines? root (!caseSensitive) lines with
      | none => exact ⟨fallback, rfl⟩
      | some list =>
          have same := Filter.RuleList.root_of_ofLines? rootCanonical.settled.isAbsolute made
          have components : path.components = list.root.components ++ rest := by
            rw [same]
            exact components
          exact Filter.RuleList.exists_ignores? (same ▸ rootCanonical) canonical nonempty components
    obtain ⟨excluded, excludes⟩ := answered selection.excludes false
    obtain ⟨included, includes⟩ := answered selection.includes true
    dsimp only [make]
    rw [excludes, includes]
    cases excluded <;> exact ⟨_, rfl⟩

end FileFilter

end ShadowCheck
