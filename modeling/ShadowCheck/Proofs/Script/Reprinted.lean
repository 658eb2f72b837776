import ShadowCheck.Proofs.Script.RoundTrip

/-!
Printing what was printed. Moving to a position, or separating towards one, gives the
same page when it is asked for the position that was reached. So declarations are
written alike from the positions at which they were written before.
-/

namespace ShadowCheck.Script

namespace Page

theorem pad_zero (page : Page) : page.pad 0 = page := by
  simp [pad]

theorem moveTo_eq (page : Page) (target : Position) :
    page.moveTo target =
      (page.newLines (target.line - page.cursor.line)).pad
        (target.column - (page.newLines (target.line - page.cursor.line)).cursor.column) := rfl

theorem moveTo_cursor_moveTo (page : Page) (target : Position) :
    page.moveTo (page.moveTo target).cursor = page.moveTo target := by
  have reached := congrArg Page.cursor (page.moveTo_eq target)
  rw [cursor_pad] at reached
  have lines : (page.moveTo target).cursor.line - page.cursor.line =
      target.line - page.cursor.line := by
    rw [reached, Position.shift_line, line_newLines, Nat.add_sub_cancel_left]
  rw [page.moveTo_eq (page.moveTo target).cursor, lines, reached, Position.shift_column,
    Nat.add_sub_cancel_left, moveTo_eq]

theorem moveTo_cursor (page : Page) : page.moveTo page.cursor = page := by
  rw [moveTo_eq, Nat.sub_self, newLines, Nat.sub_self, pad_zero]

theorem moveTo_cursor_newLine (page : Page) :
    page.moveTo page.newLine.cursor = page.newLine := by
  have line : page.newLine.cursor.line - page.cursor.line = 1 :=
    Nat.add_sub_cancel_left page.cursor.line 1
  rw [moveTo_eq, line, newLines, newLines, Nat.sub_self, pad_zero]

theorem startDeclaration_cursor_startDeclaration (page : Page) (target : Position) :
    page.startDeclaration (page.startDeclaration target).cursor =
      page.startDeclaration target := by
  obtain ⟨blanks, -, started⟩ := page.exists_extends_startDeclaration target
  rw [startDeclaration, if_pos started.le_cursor]
  unfold startDeclaration
  split
  · exact page.moveTo_cursor_moveTo target
  split
  · exact page.moveTo_cursor
  · exact page.moveTo_cursor_newLine

theorem shift_room_of_pos {page : Page} {target : Position} (positive : 0 < page.room target) :
    page.cursor.shift (page.room target) = target := by
  have line : target.line = page.cursor.line := by
    apply Decidable.byContradiction
    intro other
    rw [room, if_neg other] at positive
    exact Nat.lt_irrefl 0 positive
  have ahead : page.cursor.column ≤ target.column := by
    rw [room, if_pos line] at positive
    omega
  exact shift_room line.symm ahead

/-- A separator out of reach of its target is spaced, and the place where it ends is
just in reach. -/
theorem separate_cursor_write_spaced (page : Page) (separator : Separator) :
    page.separate separator (page.write separator.spaced).cursor =
      page.write separator.spaced := by
  have line : ¬ page.cursor.line < (page.write separator.spaced).cursor.line :=
    Nat.lt_irrefl page.cursor.line
  have room : page.room (page.write separator.spaced).cursor = separator.spaced.length := by
    simp [Page.room, cursor_write]
  rw [separate, if_neg line]
  simp only [room, Nat.le_refl, if_true, Nat.sub_self, pad_zero]

theorem separate_cursor_separate {separator : Separator} (isSeparator : IsSeparator separator)
    (page : Page) (target : Position) :
    page.separate separator (page.separate separator target).cursor =
      page.separate separator target := by
  have shortest : 0 < separator.shortest.length := by
    rw [← String.length_toList]
    exact List.length_pos_iff.mpr isSeparator.shortest.ne_nil
  have shortest_le := isSeparator.shortest_le
  obtain ⟨below, layout⟩ | ⟨line, fits, layout⟩ | ⟨line, fits, layout⟩ | ⟨-, -, layout⟩ :=
    separate_cases page separator target
  · have again : page.cursor.line < ((page.write separator.mark).moveTo target).cursor.line := by
      rw [cursor_moveTo_of_line_lt (by exact below)]
      exact below
    rw [layout, separate, if_pos again, moveTo_cursor_moveTo]
  · have reached : (page.separate separator target).cursor = target := by
      rw [layout, cursor_write, cursor_pad, Position.shift_shift, Nat.sub_add_cancel fits]
      exact shift_room_of_pos (by omega)
    rw [reached]
  · have reached : (page.separate separator target).cursor = target := by
      rw [layout, cursor_pad, cursor_write, Position.shift_shift, Nat.add_sub_cancel' fits]
      exact shift_room_of_pos (by omega)
    rw [reached]
  · rw [layout, separate_cursor_write_spaced]

/-! A declaration is written alike from the positions that a page gave it. -/

section

variable (page : Page) (declaration : Declaration)

theorem afterKeyword_place :
    page.afterKeyword (page.place declaration) = page.afterKeyword declaration :=
  congrArg (Page.write · declaration.keyword.text)
    (page.startDeclaration_cursor_startDeclaration declaration.position)

theorem afterName_place :
    page.afterName (page.place declaration) = page.afterName declaration := by
  rw [afterName, afterKeyword_place]
  exact congrArg (Page.write · declaration.name.text)
    (separate_cursor_separate isSeparator_blank (page.afterKeyword declaration) _)

theorem afterType_place :
    page.afterType (page.place declaration) = page.afterType declaration := by
  rw [afterType, afterType, afterName_place]
  change (page.afterName declaration).writeType
    ((page.afterName declaration).placeType declaration.type?) = _
  cases declaration.type? with
  | none => rfl
  | some name =>
      exact congrArg (Page.write · name.text)
        (separate_cursor_separate isSeparator_colon (page.afterName declaration) _)

theorem afterValue_place :
    page.afterValue (page.place declaration) = page.afterValue declaration := by
  rw [afterValue, afterValue, afterType_place]
  change (page.afterType declaration).writeInitializer
    ((page.afterType declaration).placeInitializer declaration.initializer?) = _
  cases declaration.initializer? with
  | none => rfl
  | some value =>
      have again := separate_cursor_separate isSeparator_equals (page.afterType declaration)
        value.position
      simp only [placeInitializer, Option.map_some, writeInitializer, Value.position_moved,
        Value.text_eq, Value.lexeme_moved, again]

theorem writeDeclaration_place :
    page.writeDeclaration (page.place declaration) = page.writeDeclaration declaration :=
  congrArg (Page.write · ";") (page.afterValue_place declaration)

end

theorem foldl_writeDeclaration_placeAll (page : Page) (declarations : List Declaration) :
    (page.placeAll declarations).foldl writeDeclaration page =
      declarations.foldl writeDeclaration page := by
  induction declarations generalizing page with
  | nil => rfl
  | cons declaration rest ih =>
      rw [placeAll, List.foldl_cons, List.foldl_cons, writeDeclaration_place, ih]

end Page

/-- Declarations print alike from the positions at which they were printed. -/
theorem printDeclarations_placeAll (declarations : List Declaration) :
    printDeclarations (Page.blank.placeAll declarations) = printDeclarations declarations := by
  rw [printDeclarations, printDeclarations, Page.foldl_writeDeclaration_placeAll]

/-- What was printed, from any positions or from the declarations of a text, is printed
again as it is. -/
theorem print_parse_print (file : Path) (edition : Edition) :
    (∀ script : Script, (∀ declaration ∈ script.declarations, declaration.Legible) →
      (parse file edition script.print).print = script.print) ∧
    ∀ (source : Path) (first : Edition) (text : String),
      (parse file edition (parse source first text).print).print =
        (parse source first text).print := by
  have again : ∀ script : Script, (∀ declaration ∈ script.declarations, declaration.Legible) →
      (parse file edition script.print).print = script.print := by
    intro script legible
    have read : (parse file edition script.print).declarations =
        Page.blank.placeAll script.declarations := by
      rw [print, parse_print legible]
    rw [print, read, printDeclarations_placeAll, print]
  exact ⟨again, fun source first text => again _ (legible_parse source first text)⟩

theorem print_parse_print_backwards :
    (∀ declaration ∈ backwards.declarations, declaration.Legible) ∧
      (parse ⟨"/b.ts"⟩ .es3 backwards.print).print = backwards.print :=
  ⟨legible_backwards, (print_parse_print ⟨"/b.ts"⟩ .es3).1 backwards legible_backwards⟩

end ShadowCheck.Script
