import ShadowCheck.Proofs.Diagnostic.Order
import ShadowCheck.Script.Print

/-!
Pages. The cursor of a page always stands behind its text, and what a separator
writes is its mark among spaces. A separator ends at its target whenever the
target leaves room for the shortest form, and that far at the least.
-/

namespace ShadowCheck.Script

namespace Page

/-- One page goes on as another by some text, the cursor moving over that text. -/
structure Extends (page longer : Page) (added : List Char) : Prop where
  text : longer.text.toList = page.text.toList ++ added
  cursor : longer.cursor = page.cursor.after added

theorem Extends.refl (page : Page) : Extends page page [] :=
  ⟨by simp, rfl⟩

theorem Extends.trans {first second third : Page} {front added : List Char}
    (start : Extends first second front) (rest : Extends second third added) :
    Extends first third (front ++ added) := by
  refine ⟨?_, ?_⟩
  · rw [rest.text, start.text, List.append_assoc]
  · rw [rest.cursor, start.cursor, Position.after_append]

theorem Extends.le_cursor {page longer : Page} {added : List Char}
    (grows : Extends page longer added) : page.cursor.le longer.cursor := by
  rw [grows.cursor]
  exact Position.le_after page.cursor added

theorem cursor_write (page : Page) (text : String) :
    (page.write text).cursor = page.cursor.shift text.length := rfl

theorem cursor_pad (page : Page) (count : Nat) :
    (page.pad count).cursor = page.cursor.shift count := rfl

theorem extends_write (page : Page) {text : String} (flat : '\n' ∉ text.toList) :
    Extends page (page.write text) text.toList := by
  refine ⟨String.toList_append, ?_⟩
  rw [Position.after_eq_shift page.cursor flat, String.length_toList, cursor_write]

theorem extends_pad (page : Page) (count : Nat) :
    Extends page (page.pad count) (List.replicate count ' ') := by
  refine ⟨by simp [pad], ?_⟩
  have flat : '\n' ∉ List.replicate count ' ' := by simp
  rw [Position.after_eq_shift page.cursor flat, List.length_replicate, cursor_pad]

theorem extends_newLine (page : Page) : Extends page page.newLine ['\n'] :=
  ⟨by simp [newLine], rfl⟩

theorem extends_newLines (page : Page) (count : Nat) :
    Extends page (page.newLines count) (List.replicate count '\n') := by
  induction count generalizing page with
  | zero => exact Extends.refl page
  | succ count ih => exact page.extends_newLine.trans (ih page.newLine)

theorem line_newLines (page : Page) (count : Nat) :
    (page.newLines count).cursor.line = page.cursor.line + count := by
  induction count generalizing page with
  | zero => rfl
  | succ count ih =>
      rw [newLines, ih]
      change page.cursor.line + 1 + count = _
      omega

theorem column_newLines_succ (page : Page) (count : Nat) :
    (page.newLines (count + 1)).cursor.column = 1 := by
  induction count generalizing page with
  | zero => rfl
  | succ count ih => exact ih page.newLine

/-! Moving to a position. -/

def Spaces (text : List Char) : Prop :=
  ∀ c ∈ text, c = ' ' ∨ c = '\n'

theorem Spaces.append {front rest : List Char} (first : Spaces front) (second : Spaces rest) :
    Spaces (front ++ rest) := by
  intro c found
  rcases List.mem_append.mp found with inside | inside
  · exact first c inside
  · exact second c inside

theorem spaces_replicate (count : Nat) : Spaces (List.replicate count ' ') :=
  fun _ found => .inl (List.eq_of_mem_replicate found)

theorem spaces_lines (count : Nat) : Spaces (List.replicate count '\n') :=
  fun _ found => .inr (List.eq_of_mem_replicate found)

theorem extends_moveTo (page : Page) (target : Position) :
    ∃ blanks, Spaces blanks ∧ Extends page (page.moveTo target) blanks ∧
      (page.cursor.line < target.line → blanks ≠ []) := by
  refine ⟨_, (spaces_lines _).append (spaces_replicate _),
    (page.extends_newLines _).trans (extends_pad _ _), ?_⟩
  intro below empty
  have positive : target.line - page.cursor.line ≠ 0 := by omega
  simp [positive] at empty

theorem cursor_moveTo_of_line_eq {page : Page} {target : Position}
    (line : page.cursor.line = target.line) (ahead : page.cursor.column ≤ target.column) :
    (page.moveTo target).cursor = target := by
  cases target with
  | mk targetLine column =>
      simp only [moveTo, line, Nat.sub_self, newLines, cursor_pad, Position.shift,
        Position.mk.injEq, true_and] at *
      omega

theorem cursor_moveTo_of_line_lt {page : Page} {target : Position}
    (below : page.cursor.line < target.line) :
    (page.moveTo target).cursor = ⟨target.line, max 1 target.column⟩ := by
  obtain ⟨count, lines⟩ : ∃ count, target.line - page.cursor.line = count + 1 :=
    ⟨target.line - page.cursor.line - 1, by omega⟩
  have line := line_newLines page (count + 1)
  have column := column_newLines_succ page count
  simp only [moveTo, lines, cursor_pad, Position.shift, Position.mk.injEq, column]
  omega

theorem cursor_moveTo {page : Page} {target : Position} (ahead : page.cursor.le target)
    (positive : 1 ≤ target.column) : (page.moveTo target).cursor = target := by
  rcases (Position.le_iff _ _).mp ahead with below | ⟨line, column⟩
  · rw [cursor_moveTo_of_line_lt below, Nat.max_eq_right positive]
  · exact cursor_moveTo_of_line_eq line column

/-! Separators. -/

/-- A mark among spaces; there is something even where there is no mark. -/
structure IsGap (mark gap : List Char) : Prop where
  parts : ∃ before after, Spaces before ∧ Spaces after ∧ gap = before ++ mark ++ after
  ne_nil : gap ≠ []

theorem IsGap.prepend {mark gap blanks : List Char} (isGap : IsGap mark gap)
    (spaces : Spaces blanks) : IsGap mark (blanks ++ gap) := by
  obtain ⟨⟨before, after, first, second, rfl⟩, ne_nil⟩ := isGap
  refine ⟨⟨blanks ++ before, after, spaces.append first, second, by simp⟩, ?_⟩
  exact List.append_ne_nil_of_right_ne_nil blanks ne_nil

theorem IsGap.append {mark gap blanks : List Char} (isGap : IsGap mark gap)
    (spaces : Spaces blanks) : IsGap mark (gap ++ blanks) := by
  obtain ⟨⟨before, after, first, second, rfl⟩, ne_nil⟩ := isGap
  refine ⟨⟨before, after ++ blanks, first, second.append spaces, by simp⟩, ?_⟩
  exact List.append_ne_nil_of_left_ne_nil ne_nil blanks

/-- What holds of the separators that declarations are written with. -/
structure IsSeparator (separator : Separator) : Prop where
  shortest : IsGap separator.mark.toList separator.shortest.toList
  spaced : IsGap separator.mark.toList separator.spaced.toList
  flat : ∀ text ∈ [separator.mark, separator.shortest, separator.spaced], '\n' ∉ text.toList
  shortest_le : separator.shortest.length ≤ separator.spaced.length

theorem isSeparator_blank : IsSeparator .blank where
  shortest := ⟨⟨[], [' '], nofun, spaces_replicate 1, rfl⟩, by decide⟩
  spaced := ⟨⟨[], [' '], nofun, spaces_replicate 1, rfl⟩, by decide⟩
  flat := by decide
  shortest_le := by decide

theorem isSeparator_colon : IsSeparator .colon where
  shortest := ⟨⟨[], [], nofun, nofun, rfl⟩, by decide⟩
  spaced := ⟨⟨[], [' '], nofun, spaces_replicate 1, rfl⟩, by decide⟩
  flat := by decide
  shortest_le := by decide

theorem isSeparator_equals : IsSeparator .equals where
  shortest := ⟨⟨[], [], nofun, nofun, rfl⟩, by decide⟩
  spaced := ⟨⟨[' '], [' '], spaces_replicate 1, spaces_replicate 1, rfl⟩, by decide⟩
  flat := by decide
  shortest_le := by decide

/-- The layouts of a separator: on the way to a later line, with the target in
reach of the spaced or of the shortest form, and out of reach. -/
theorem separate_cases (page : Page) (separator : Separator) (target : Position) :
    (page.cursor.line < target.line ∧
        page.separate separator target = (page.write separator.mark).moveTo target) ∨
      (target.line ≤ page.cursor.line ∧ separator.spaced.length ≤ page.room target ∧
        page.separate separator target =
          (page.pad (page.room target - separator.spaced.length)).write separator.spaced) ∨
      (target.line ≤ page.cursor.line ∧ separator.shortest.length ≤ page.room target ∧
        page.separate separator target =
          (page.write separator.shortest).pad (page.room target - separator.shortest.length)) ∨
      (target.line ≤ page.cursor.line ∧ page.room target < separator.shortest.length ∧
        page.separate separator target = page.write separator.spaced) := by
  simp only [separate]
  split
  · rename_i below
    exact .inl ⟨below, rfl⟩
  rename_i notBelow
  have line : target.line ≤ page.cursor.line := Nat.le_of_not_lt notBelow
  split
  · rename_i fits
    exact .inr (.inl ⟨line, fits, rfl⟩)
  split
  · rename_i fits
    exact .inr (.inr (.inl ⟨line, fits, rfl⟩))
  · rename_i tight
    exact .inr (.inr (.inr ⟨line, Nat.lt_of_not_le tight, rfl⟩))

theorem extends_separate {separator : Separator} (isSeparator : IsSeparator separator)
    (page : Page) (target : Position) :
    ∃ gap, IsGap separator.mark.toList gap ∧ Extends page (page.separate separator target) gap := by
  have flat := isSeparator.flat
  simp only [List.forall_mem_cons] at flat
  obtain ⟨flatMark, flatShortest, flatSpaced, -⟩ := flat
  obtain ⟨below, layout⟩ | ⟨-, -, layout⟩ | ⟨-, -, layout⟩ | ⟨-, -, layout⟩ :=
    separate_cases page separator target
  · have marked := page.extends_write flatMark
    obtain ⟨blanks, spaces, moved, ne_nil⟩ := (page.write separator.mark).extends_moveTo target
    refine ⟨separator.mark.toList ++ blanks, ⟨⟨[], blanks, nofun, spaces, rfl⟩, ?_⟩, ?_⟩
    · exact List.append_ne_nil_of_right_ne_nil _ (ne_nil below)
    · exact layout ▸ marked.trans moved
  · exact ⟨_, isSeparator.spaced.prepend (spaces_replicate _),
      layout ▸ (extends_pad _ _).trans (extends_write _ flatSpaced)⟩
  · exact ⟨_, isSeparator.shortest.append (spaces_replicate _),
      layout ▸ (extends_write _ flatShortest).trans (extends_pad _ _)⟩
  · exact ⟨_, isSeparator.spaced, layout ▸ extends_write _ flatSpaced⟩

theorem shift_le_cursor_separate {separator : Separator} (isSeparator : IsSeparator separator)
    (page : Page) (target : Position) :
    (page.cursor.shift separator.shortest.length).le (page.separate separator target).cursor := by
  have shortest_le := isSeparator.shortest_le
  obtain ⟨below, layout⟩ | ⟨-, fits, layout⟩ | ⟨-, fits, layout⟩ | ⟨-, -, layout⟩ :=
    separate_cases page separator target
  · rw [layout, cursor_moveTo_of_line_lt (by exact below)]
    exact Position.le_of_line_lt below
  · rw [layout, cursor_write, cursor_pad, Position.shift_shift]
    exact Position.shift_le_shift (Position.le_refl _) (by omega)
  · rw [layout, cursor_pad, cursor_write, Position.shift_shift]
    exact Position.shift_le_shift (Position.le_refl _) (by omega)
  · rw [layout, cursor_write]
    exact Position.shift_le_shift (Position.le_refl _) shortest_le

theorem shift_room {page : Page} {target : Position} (line : page.cursor.line = target.line)
    (ahead : page.cursor.column ≤ target.column) :
    page.cursor.shift (page.room target) = target := by
  cases target
  simp only [room, Position.shift, line, if_true, Position.mk.injEq, true_and] at *
  omega

/-- A separator ends at its target when there is room for the shortest form. -/
theorem cursor_separate {separator : Separator}
    {page : Page} {target : Position} (positive : 1 ≤ target.column)
    (room : (page.cursor.shift separator.shortest.length).le target) :
    (page.separate separator target).cursor = target := by
  rw [Position.le_iff, Position.shift_line, Position.shift_column] at room
  obtain ⟨below, layout⟩ | ⟨line, fits, layout⟩ | ⟨line, fits, layout⟩ | ⟨line, tight, layout⟩ :=
    separate_cases page separator target
  · have ahead : (page.write separator.mark).cursor.le target := Position.le_of_line_lt below
    rw [layout, cursor_moveTo ahead positive]
  · rw [layout, cursor_write, cursor_pad, Position.shift_shift, Nat.sub_add_cancel fits]
    exact shift_room (by omega) (by omega)
  · rw [layout, cursor_pad, cursor_write, Position.shift_shift, Nat.add_sub_cancel' fits]
    exact shift_room (by omega) (by omega)
  · have reached : page.cursor.shift (page.room target) = target :=
      shift_room (by omega) (by omega)
    have column := congrArg Position.column reached
    rw [Position.shift_column] at column
    omega

end Page

end ShadowCheck.Script
