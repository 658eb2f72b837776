import ShadowCheck.Diagnostic.Basic

/-!
The order of positions, and how a position moves over text. Findings that stand
in order are left as they are by sorting; sorting is the one way to put findings in
order and leave those at one position as they came.
-/

namespace ShadowCheck

namespace Position

theorem le_iff (left right : Position) :
    left.le right ↔
      left.line < right.line ∨ left.line = right.line ∧ left.column ≤ right.column := by
  simp [le]

theorem le_refl (position : Position) : position.le position := by
  simp [le_iff]

theorem le_trans {left middle right : Position} (first : left.le middle)
    (second : middle.le right) : left.le right := by
  rw [le_iff] at *
  omega

theorem le_antisymm {left right : Position} (below : left.le right) (above : right.le left) :
    left = right := by
  obtain ⟨leftLine, leftColumn⟩ := left
  obtain ⟨rightLine, rightColumn⟩ := right
  simp only [le_iff, mk.injEq] at *
  omega

theorem le_total (left right : Position) : (left.le right || right.le left) = true := by
  rw [Bool.or_eq_true, le_iff, le_iff]
  omega

/-- The position some columns further on the line. -/
def shift (position : Position) (count : Nat) : Position :=
  ⟨position.line, position.column + count⟩

@[simp] theorem shift_line (position : Position) (count : Nat) :
    (position.shift count).line = position.line := rfl

@[simp] theorem shift_column (position : Position) (count : Nat) :
    (position.shift count).column = position.column + count := rfl

@[simp] theorem shift_shift (position : Position) (first second : Nat) :
    (position.shift first).shift second = position.shift (first + second) := by
  simp [shift, Nat.add_assoc]

theorem le_shift (position : Position) (count : Nat) :
    position.le (position.shift count) := by
  simp [le_iff]

theorem column_pos_shift {position : Position} (positive : 1 ≤ position.column) (count : Nat) :
    1 ≤ (position.shift count).column :=
  Nat.le_trans positive (Nat.le_add_right position.column count)

theorem shift_le_shift {left right : Position} (below : left.le right) {few many : Nat}
    (bound : few ≤ many) : (left.shift few).le (right.shift many) := by
  simp only [le_iff, shift_line, shift_column] at *
  omega

theorem le_of_shift_le {left right : Position} {count : Nat}
    (below : (left.shift count).le right) : left.le right :=
  le_trans (le_shift left count) below

theorem le_of_line_lt {left right : Position} (below : left.line < right.line) :
    left.le right := by
  rw [le_iff]
  exact .inl below

theorem line_le_of_le {left right : Position} (below : left.le right) :
    left.line ≤ right.line := by
  rw [le_iff] at below
  omega

theorem shift_one_le_advance (position : Position) (c : Char) :
    (position.shift 1).le (position.advance c) := by
  unfold advance
  split <;> simp [le_iff]

theorem shift_length_le_after (position : Position) (text : List Char) :
    (position.shift text.length).le (position.after text) := by
  induction text generalizing position with
  | nil => exact le_refl position
  | cons c rest ih =>
      have step : (position.shift (rest.length + 1)).le ((position.advance c).shift rest.length) := by
        rw [Nat.add_comm, ← shift_shift]
        exact shift_le_shift (shift_one_le_advance position c) (Nat.le_refl _)
      exact le_trans step (ih (position.advance c))

theorem le_after (position : Position) (text : List Char) : position.le (position.after text) :=
  le_of_shift_le (shift_length_le_after position text)

theorem after_eq_shift {text : List Char} (position : Position) (plain : '\n' ∉ text) :
    position.after text = position.shift text.length := by
  induction text generalizing position with
  | nil => rfl
  | cons c rest ih =>
      have here : c ≠ '\n' := fun same => plain (by simp [same])
      have there : '\n' ∉ rest := fun found => plain (by simp [found])
      rw [after_cons, ih _ there]
      simp only [advance, here, if_false, shift, mk.injEq, List.length_cons, true_and]
      omega

theorem line_lt_after {text : List Char} (position : Position) (found : '\n' ∈ text) :
    position.line < (position.after text).line := by
  induction text generalizing position with
  | nil => cases found
  | cons c rest ih =>
      rw [after_cons]
      by_cases here : c = '\n'
      · have moved : (position.advance c).line = position.line + 1 := by
          simp [advance, here]
        have below := line_le_of_le (le_after (position.advance c) rest)
        omega
      · have there : '\n' ∈ rest := by
          rcases List.mem_cons.mp found with same | there
          · exact absurd same.symm here
          · exact there
        have moved : (position.advance c).line = position.line := by
          simp [advance, here]
        have below := ih (position.advance c) there
        omega

theorem column_pos_after {position : Position} (positive : 1 ≤ position.column)
    (text : List Char) : 1 ≤ (position.after text).column := by
  induction text generalizing position with
  | nil => exact positive
  | cons c rest ih =>
      apply ih
      unfold advance
      split
      · exact Nat.le_refl 1
      · exact column_pos_shift positive 1

end Position

namespace Finding

variable {α : Type}

def Sorted (findings : List (Finding α)) : Prop :=
  findings.Pairwise fun left right => left.position.le right.position

theorem sort_eq_self {findings : List (Finding α)} (sorted : Sorted findings) :
    sort findings = findings :=
  List.mergeSort_of_pairwise sorted

theorem sort_perm (findings : List (Finding α)) : (sort findings).Perm findings :=
  List.mergeSort_perm findings _

theorem sort_eq_nil_iff {findings : List (Finding α)} : sort findings = [] ↔ findings = [] := by
  rw [← List.perm_nil, (sort_perm findings).congr_left, List.perm_nil]

/-! Stable sorting. -/

/-- The findings at a position, in their order. -/
def atPosition (findings : List (Finding α)) (position : Position) : List (Finding α) :=
  findings.filter fun finding => finding.position = position

/-- Whether findings are put in order, and those at one position left in theirs. -/
structure Arranged (findings arranged : List (Finding α)) : Prop where
  sorted : Sorted arranged
  stable : ∀ position, atPosition arranged position = atPosition findings position

theorem sorted_sort (findings : List (Finding α)) : Sorted (sort findings) := by
  refine List.pairwise_mergeSort ?_ ?_ findings
  · exact fun _ _ _ => Position.le_trans
  · exact fun left right => left.position.le_total right.position

theorem sorted_atPosition (findings : List (Finding α)) (position : Position) :
    Sorted (atPosition findings position) := by
  have level : ∀ finding ∈ atPosition findings position, finding.position = position :=
    fun _ found => of_decide_eq_true (List.mem_filter.mp found).2
  apply List.pairwise_of_forall_mem_list
  intro left leftFound right rightFound
  rw [level left leftFound, level right rightFound]
  exact Position.le_refl position

theorem atPosition_sort (findings : List (Finding α)) (position : Position) :
    atPosition (sort findings) position = atPosition findings position := by
  have kept : (atPosition findings position).Sublist (sort findings) := by
    refine List.sublist_mergeSort ?_ ?_ (sorted_atPosition findings position)
      List.filter_sublist
    · exact fun _ _ _ => Position.le_trans
    · exact fun left right => left.position.le_total right.position
  have inside : (atPosition findings position).Sublist (atPosition (sort findings) position) := by
    have again := kept.filter fun finding => finding.position = position
    simpa only [atPosition, List.filter_filter, Bool.and_self] using again
  have sizes := ((sort_perm findings).filter fun finding => finding.position = position).length_eq
  exact (inside.eq_of_length sizes.symm).symm

theorem mem_atPosition_self {findings : List (Finding α)} {finding : Finding α} :
    finding ∈ atPosition findings finding.position ↔ finding ∈ findings := by
  simp [atPosition]

theorem Sorted.head_le {first finding : Finding α} {rest : List (Finding α)}
    (sorted : Sorted (first :: rest)) (found : finding ∈ first :: rest) :
    first.position.le finding.position := by
  rcases List.mem_cons.mp found with rfl | later
  · exact Position.le_refl _
  · exact (List.pairwise_cons.mp sorted).1 finding later

theorem mem_congr {first second : List (Finding α)}
    (same : ∀ position, atPosition first position = atPosition second position)
    (finding : Finding α) : finding ∈ first ↔ finding ∈ second := by
  rw [← mem_atPosition_self, same, mem_atPosition_self]

/-- Lists in order that have the same findings at each position are the same. -/
theorem eq_of_sorted {first second : List (Finding α)} (firstSorted : Sorted first)
    (secondSorted : Sorted second)
    (same : ∀ position, atPosition first position = atPosition second position) :
    first = second := by
  induction first generalizing second with
  | nil =>
      symm
      apply List.eq_nil_iff_forall_not_mem.mpr
      intro finding found
      exact List.not_mem_nil ((mem_congr same finding).mpr found)
  | cons head rest ih =>
      cases second with
      | nil => exact absurd ((mem_congr same head).mp List.mem_cons_self) List.not_mem_nil
      | cons other others =>
          have level : head.position = other.position := Position.le_antisymm
            (firstSorted.head_le ((mem_congr same other).mpr List.mem_cons_self))
            (secondSorted.head_le ((mem_congr same head).mp List.mem_cons_self))
          have heads := same head.position
          simp only [atPosition, List.filter_cons, level, decide_true, if_true,
            List.cons.injEq] at heads
          obtain ⟨rfl, -⟩ := heads
          have tails : ∀ position, atPosition rest position = atPosition others position := by
            intro position
            have both := same position
            simp only [atPosition, List.filter_cons] at both ⊢
            split at both
            · exact (List.cons.inj both).2
            · exact both
          rw [ih (List.pairwise_cons.mp firstSorted).2 (List.pairwise_cons.mp secondSorted).2 tails]

theorem arranged_iff {findings arranged : List (Finding α)} :
    Arranged findings arranged ↔ arranged = sort findings := by
  constructor
  · rintro ⟨sorted, stable⟩
    apply eq_of_sorted sorted (sorted_sort findings)
    intro position
    rw [stable, atPosition_sort]
  · rintro rfl
    exact ⟨sorted_sort findings, atPosition_sort findings⟩

end Finding

end ShadowCheck
