import ShadowCheck.Proofs.Script.Layout

/-!
Where declarations stand. Declarations that leave room for what is written
between their parts, and that come one after another, are placed by a page where
they already stand; and so stand the declarations that a page has placed.
-/

namespace ShadowCheck.Script

/-- Whether a mark fits between the end of one lexeme and the next lexeme. -/
structure Reaches (stop target : Position) : Prop where
  room : (stop.shift 1).le target
  positive : 1 ≤ target.column

def Name.stop (name : Name) : Position :=
  name.position.shift name.text.length

def Value.stop (value : Value) : Position :=
  value.position.shift value.text.length

namespace Declaration

/-- Where the name ends, or the type if there is one. -/
def typeStop (declaration : Declaration) : Position :=
  declaration.type?.elim declaration.name.stop Name.stop

def stop (declaration : Declaration) : Position :=
  declaration.initializer?.elim declaration.typeStop Value.stop

/-- Whether the parts of a declaration stand in order, with room between them. -/
structure Spaced (declaration : Declaration) : Prop where
  positive : 1 ≤ declaration.position.column
  name : Reaches (declaration.position.shift declaration.keyword.text.length)
    declaration.name.position
  type : ∀ name ∈ declaration.type?,
    Reaches declaration.name.stop name.position
  initializer : ∀ value ∈ declaration.initializer?,
    Reaches declaration.typeStop value.position

theorem Spaced.position_le_name {declaration : Declaration} (spaced : declaration.Spaced) :
    declaration.position.le declaration.name.position :=
  Position.le_trans (Position.le_shift _ _) (Position.le_of_shift_le spaced.name.room)

theorem Spaced.name_le_typeStop {declaration : Declaration} (spaced : declaration.Spaced) :
    declaration.name.position.le declaration.typeStop := by
  unfold typeStop
  cases present : declaration.type? with
  | none => exact Position.le_shift _ _
  | some name =>
      have reached := Position.le_of_shift_le (spaced.type name present).room
      exact Position.le_trans (Position.le_of_shift_le reached) (Position.le_shift _ _)

theorem Spaced.name_le_stop {declaration : Declaration} (spaced : declaration.Spaced) :
    declaration.name.position.le declaration.stop := by
  have passed := spaced.name_le_typeStop
  unfold stop
  cases present : declaration.initializer? with
  | none => exact passed
  | some value =>
      have reached := Position.le_of_shift_le (spaced.initializer value present).room
      exact Position.le_trans passed (Position.le_trans reached (Position.le_shift _ _))

theorem Spaced.name_le_next {declaration : Declaration} (spaced : declaration.Spaced) :
    declaration.name.position.le (declaration.stop.shift 1) :=
  Position.le_trans spaced.name_le_stop (Position.le_shift declaration.stop 1)

theorem Spaced.column_pos_typeStop {declaration : Declaration} (spaced : declaration.Spaced) :
    1 ≤ declaration.typeStop.column := by
  unfold typeStop
  cases present : declaration.type? with
  | none => exact Position.column_pos_shift spaced.name.positive _
  | some name => exact Position.column_pos_shift (spaced.type name present).positive _

theorem Spaced.column_pos_stop {declaration : Declaration} (spaced : declaration.Spaced) :
    1 ≤ declaration.stop.column := by
  unfold stop
  cases present : declaration.initializer? with
  | none => exact spaced.column_pos_typeStop
  | some value => exact Position.column_pos_shift (spaced.initializer value present).positive _

end Declaration

/-- Whether declarations stand one behind another from a position on, each with
room for the semicolon that ends it. -/
def InPlace : Position → List Declaration → Prop
  | _, [] => True
  | cursor, declaration :: rest =>
      cursor.le declaration.position ∧ declaration.Spaced ∧
        InPlace (declaration.stop.shift 1) rest

namespace Page

theorem stop_name_place (page : Page) (declaration : Declaration) :
    (page.place declaration).name.stop = (page.afterName declaration).cursor := rfl

theorem typeStop_place (page : Page) (declaration : Declaration) :
    (page.place declaration).typeStop = (page.afterType declaration).cursor := by
  cases declaration with
  | mk keyword position name type? initializer? =>
      cases type? <;> rfl

theorem stop_place (page : Page) (declaration : Declaration) :
    (page.place declaration).stop = (page.afterValue declaration).cursor := by
  have typeStop := page.typeStop_place declaration
  cases declaration with
  | mk keyword position name type? initializer? =>
      cases initializer? with
      | none => exact typeStop
      | some value =>
          simp [Declaration.stop, place, placeInitializer, Value.stop, Value.text_eq, afterValue,
            writeInitializer, cursor_write]

theorem cursor_writeDeclaration (page : Page) (declaration : Declaration) :
    (page.writeDeclaration declaration).cursor = (page.place declaration).stop.shift 1 := by
  rw [stop_place]
  rfl

/-! Placing in place. -/

theorem cursor_separate_of_reaches {separator : Separator}
    (shortest : separator.shortest.length = 1) {page : Page} {target : Position}
    (reaches : Reaches page.cursor target) : (page.separate separator target).cursor = target :=
  cursor_separate reaches.positive (shortest ▸ reaches.room)

theorem placeName_eq_self {separator : Separator} (shortest : separator.shortest.length = 1)
    {page : Page} {name : Name} (reaches : Reaches page.cursor name.position) :
    page.placeName separator name = name := by
  rw [placeName, cursor_separate_of_reaches shortest reaches]

theorem placeType_eq_self {page : Page} {type? : Option Name}
    (reaches : ∀ name ∈ type?, Reaches page.cursor name.position) :
    page.placeType type? = type? := by
  cases type? with
  | none => rfl
  | some name =>
      rw [placeType, Option.map_some, placeName_eq_self rfl (reaches name rfl)]

theorem placeInitializer_eq_self {page : Page} {initializer? : Option Value}
    (reaches : ∀ value ∈ initializer?, Reaches page.cursor value.position) :
    page.placeInitializer initializer? = initializer? := by
  cases initializer? with
  | none => rfl
  | some value =>
      rw [placeInitializer, Option.map_some,
        cursor_separate_of_reaches rfl (reaches value rfl), Value.moved_position]

/-- A declaration that a page has not passed is placed where it stands. -/
theorem place_eq_self {page : Page} {declaration : Declaration}
    (ahead : page.cursor.le declaration.position) (spaced : declaration.Spaced) :
    page.place declaration = declaration := by
  have started : (page.startDeclaration declaration.position).cursor = declaration.position := by
    rw [startDeclaration, if_pos ahead]
    exact cursor_moveTo ahead spaced.positive
  have nameReaches : Reaches (page.afterKeyword declaration).cursor declaration.name.position := by
    rw [afterKeyword, cursor_write, started]
    exact spaced.name
  have name : (page.place declaration).name = declaration.name :=
    placeName_eq_self rfl nameReaches
  have typeReaches : ∀ name ∈ declaration.type?,
      Reaches (page.afterName declaration).cursor name.position := by
    rw [← stop_name_place, name]
    exact spaced.type
  have type : (page.place declaration).type? = declaration.type? :=
    placeType_eq_self typeReaches
  have valueReaches : ∀ value ∈ declaration.initializer?,
      Reaches (page.afterType declaration).cursor value.position := by
    rw [← typeStop_place, Declaration.typeStop, name, type]
    exact spaced.initializer
  have initializer : (page.place declaration).initializer? = declaration.initializer? :=
    placeInitializer_eq_self valueReaches
  rw [Declaration.mk.injEq]
  exact ⟨rfl, started, name, type, initializer⟩

theorem placeAll_eq_self {page : Page} {declarations : List Declaration}
    (inPlace : InPlace page.cursor declarations) : page.placeAll declarations = declarations := by
  induction declarations generalizing page with
  | nil => rfl
  | cons declaration rest ih =>
      obtain ⟨ahead, spaced, others⟩ := inPlace
      have placed := place_eq_self ahead spaced
      have moved := page.cursor_writeDeclaration declaration
      rw [placed] at moved
      rw [placeAll, placed, ih (moved.symm ▸ others)]

/-! Placed declarations. -/

theorem column_pos_of_extends {page longer : Page} {added : List Char}
    (grows : Extends page longer added) (positive : 1 ≤ page.cursor.column) :
    1 ≤ longer.cursor.column := by
  rw [grows.cursor]
  exact Position.column_pos_after positive added

theorem reaches_separate {separator : Separator} (isSeparator : IsSeparator separator)
    (shortest : separator.shortest.length = 1) {page : Page} (positive : 1 ≤ page.cursor.column)
    (target : Position) : Reaches page.cursor (page.separate separator target).cursor := by
  obtain ⟨gap, -, separated⟩ := extends_separate isSeparator page target
  have room := shift_le_cursor_separate isSeparator page target
  exact ⟨shortest ▸ room, column_pos_of_extends separated positive⟩

/-- A page places a declaration behind what it holds, with room between the parts. -/
theorem spaced_place {page : Page} (positive : 1 ≤ page.cursor.column)
    (declaration : Declaration) :
    page.cursor.le (page.place declaration).position ∧ (page.place declaration).Spaced := by
  obtain ⟨blanks, -, started⟩ := page.exists_extends_startDeclaration declaration.position
  have startColumn := column_pos_of_extends started positive
  have keywordColumn : 1 ≤ (page.afterKeyword declaration).cursor.column :=
    Position.column_pos_shift startColumn _
  have nameReaches := reaches_separate isSeparator_blank rfl keywordColumn declaration.name.position
  have nameColumn : 1 ≤ (page.afterName declaration).cursor.column :=
    Position.column_pos_shift nameReaches.positive _
  have typeReaches : ∀ name ∈ (page.place declaration).type?,
      Reaches (page.afterName declaration).cursor name.position := by
    intro name placed
    obtain ⟨written, -, rfl⟩ := Option.map_eq_some_iff.mp placed
    exact reaches_separate isSeparator_colon rfl nameColumn written.position
  have typeColumn : 1 ≤ (page.afterType declaration).cursor.column := by
    rw [← typeStop_place, Declaration.typeStop]
    cases placed : (page.place declaration).type? with
    | none => exact nameColumn
    | some name => exact Position.column_pos_shift (typeReaches name placed).positive _
  refine ⟨started.le_cursor, startColumn, nameReaches, typeReaches, ?_⟩
  intro value placed
  rw [typeStop_place]
  obtain ⟨written, -, rfl⟩ := Option.map_eq_some_iff.mp placed
  rw [Value.position_moved]
  exact reaches_separate isSeparator_equals rfl typeColumn written.position

theorem inPlace_placeAll {page : Page} (positive : 1 ≤ page.cursor.column)
    (declarations : List Declaration) : InPlace page.cursor (page.placeAll declarations) := by
  induction declarations generalizing page with
  | nil => trivial
  | cons declaration rest ih =>
      obtain ⟨ahead, spaced⟩ := spaced_place positive declaration
      have moved := page.cursor_writeDeclaration declaration
      have positiveAfter : 1 ≤ (page.writeDeclaration declaration).cursor.column := by
        rw [moved]
        exact Position.column_pos_shift spaced.column_pos_stop 1
      have others := ih positiveAfter
      rw [moved] at others
      exact ⟨ahead, spaced, others⟩

end Page

/-! Findings. -/

theorem le_of_mem_inPlace {cursor : Position} {declarations : List Declaration}
    (inPlace : InPlace cursor declarations) {declaration : Declaration}
    (found : declaration ∈ declarations) : cursor.le declaration.name.position := by
  induction declarations generalizing cursor with
  | nil => cases found
  | cons first rest ih =>
      obtain ⟨ahead, spaced, others⟩ := inPlace
      have named := Position.le_trans ahead spaced.position_le_name
      rcases List.mem_cons.mp found with rfl | later
      · exact named
      · exact Position.le_trans named (Position.le_trans spaced.name_le_next (ih others later))

theorem Declaration.mem_findings {declaration : Declaration} {finding : Finding SyntaxIssue}
    (found : finding ∈ declaration.findings) :
    finding.position = declaration.name.position := by
  unfold findings at found
  split at found
  · rw [List.mem_singleton.mp found]
  · cases found

theorem sorted_flatMap_findings {cursor : Position} {declarations : List Declaration}
    (inPlace : InPlace cursor declarations) :
    Finding.Sorted (declarations.flatMap Declaration.findings) := by
  induction declarations generalizing cursor with
  | nil => exact .nil
  | cons declaration rest ih =>
      obtain ⟨ahead, spaced, others⟩ := inPlace
      refine List.pairwise_append.mpr ⟨?_, ih others, ?_⟩
      · unfold Declaration.findings
        split
        · exact List.pairwise_singleton _ _
        · exact .nil
      · intro left first right second
        obtain ⟨later, inside, here⟩ := List.mem_flatMap.mp second
        rw [Declaration.mem_findings first, Declaration.mem_findings here]
        exact Position.le_trans spaced.name_le_next (le_of_mem_inPlace others inside)

/-- Printed declarations read as the declarations where they were placed, and
nothing is found in them but constants without a value. -/
theorem parse_print {declarations : List Declaration}
    (legible : ∀ declaration ∈ declarations, declaration.Legible) (file : Path)
    (edition : Edition) :
    parse file edition (printDeclarations declarations) =
      ⟨file, edition, Page.blank.placeAll declarations,
        (Page.blank.placeAll declarations).flatMap Declaration.findings⟩ := by
  have inPlace : InPlace Page.blank.cursor (Page.blank.placeAll declarations) :=
    Page.inPlace_placeAll (Nat.le_refl 1) declarations
  rw [parse_printDeclarations legible,
    Finding.sort_eq_self (sorted_flatMap_findings inPlace)]

end ShadowCheck.Script
