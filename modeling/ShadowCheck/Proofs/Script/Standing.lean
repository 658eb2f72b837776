import ShadowCheck.Proofs.Script.Grammar
import ShadowCheck.Proofs.Script.Placement
import ShadowCheck.Proofs.Script.Spacing

/-!
Where the declarations of a text stand. The tokens of a text leave each other
room, so the declarations read from them stand in order with room between their
parts, also where reading failed and went on later.
-/

namespace ShadowCheck.Script

/-! What a reader leaves is the end of what it was given. -/

theorem readName_suffix (tokens : List Token) : (readName tokens).2 <:+ tokens := by
  unfold readName
  split
  · exact List.suffix_cons _ _
  · exact List.suffix_refl tokens

theorem readType_suffix (tokens : List Token) : (readType tokens).2 <:+ tokens := by
  unfold readType
  split
  · rename_i position newline rest
    have named := readName_suffix rest
    split <;> rename_i read <;> rw [read] at named <;>
      exact named.trans (List.suffix_cons _ _)
  · exact List.suffix_refl tokens

theorem readValue_suffix (tokens : List Token) : (readValue tokens).2 <:+ tokens := by
  unfold readValue
  split
  all_goals first | exact List.suffix_cons _ _ | exact List.suffix_refl tokens

theorem readInitializer_suffix (tokens : List Token) :
    (readInitializer tokens).2 <:+ tokens := by
  unfold readInitializer
  split
  · rename_i position newline rest
    have valued := readValue_suffix rest
    split <;> rename_i read <;> rw [read] at valued <;>
      exact valued.trans (List.suffix_cons _ _)
  · exact List.suffix_refl tokens

theorem readEnd_suffix (tokens : List Token) : (readEnd tokens).2 <:+ tokens := by
  unfold readEnd
  split
  · exact List.suffix_refl _
  · exact List.suffix_cons _ _
  · split <;> exact List.suffix_refl _

theorem readHead_suffix (keyword : Keyword) (position : Position) (tokens : List Token) :
    (readHead keyword position tokens).2 <:+ tokens := by
  have named := readName_suffix tokens
  unfold readHead
  split <;> rename_i afterName readsName <;> rw [readsName] at named
  · exact named
  have typed := readType_suffix afterName
  split <;> rename_i afterType readsType <;> rw [readsType] at typed
  · exact typed.trans named
  have valued := readInitializer_suffix afterType
  split <;> rename_i afterValue readsValue <;> rw [readsValue] at valued
  · exact valued.trans (typed.trans named)
  · exact valued.trans (typed.trans named)

theorem rest_readDeclaration_suffix (stop : Position) (keyword : Keyword) (position : Position)
    (tokens : List Token) : (readDeclaration stop keyword position tokens).rest <:+ tokens := by
  have head := readHead_suffix keyword position tokens
  unfold readDeclaration
  split <;> rename_i afterHead readsHead <;> rw [readsHead] at head
  · exact head
  have ended := readEnd_suffix afterHead
  split <;> rename_i rest readsEnd <;> rw [readsEnd] at ended
  · exact ended.trans head
  · exact ended.trans head

theorem recover_suffix (tokens : List Token) : recover tokens <:+ tokens := by
  induction tokens with
  | nil => exact List.suffix_refl []
  | cons token rest ih =>
      unfold recover
      split
      · exact List.suffix_refl _
      · exact List.suffix_cons token rest
      · exact ih.trans (List.suffix_cons token rest)

theorem Attempt.resume_suffix (attempt : Attempt) : attempt.resume <:+ attempt.rest := by
  unfold resume
  split
  · exact List.suffix_refl attempt.rest
  · exact recover_suffix attempt.rest

theorem resume_readDeclaration_suffix (stop : Position) (keyword : Keyword)
    (position : Position) (token : Token) (rest : List Token) :
    (readDeclaration stop keyword position rest).resume <:+ token :: rest := by
  have left := rest_readDeclaration_suffix stop keyword position rest
  have resumed := (readDeclaration stop keyword position rest).resume_suffix
  exact resumed.trans (left.trans (List.suffix_cons token rest))

/-! Tokens behind what was read. -/

theorem Lexeme.length_text_mark (kind : Mark) : (mark kind).text.length = 1 :=
  String.length_singleton

/-- Whether tokens stand behind a position, and on later lines after a line feed. -/
def Leaves (stop : Position) (tokens : List Token) : Prop :=
  ∀ token ∈ tokens, stop.le token.position ∧
    (token.afterNewline → stop.line < token.position.line)

theorem Token.leaves_of_before {first : Token} {tokens : List Token}
    (before : ∀ token ∈ tokens, first.Before token) :
    Leaves (first.position.shift first.lexeme.text.length) tokens :=
  fun token found => ⟨(before token found).room, (before token found).lower⟩

theorem Leaves.pair {stop : Position} {kind : Mark} {mark target : Token} {rest : List Token}
    (leaves : Leaves stop (mark :: target :: rest)) (isMark : mark.lexeme = .mark kind)
    (before : (mark :: target :: rest).Pairwise Token.Before)
    (positive : 1 ≤ target.position.column) :
    Reaches stop target.position ∧
      Leaves (target.position.shift target.lexeme.text.length) rest := by
  obtain ⟨first, others⟩ := List.pairwise_cons.mp before
  have room := (first target List.mem_cons_self).room
  rw [isMark, Lexeme.length_text_mark] at room
  have behind := (leaves mark List.mem_cons_self).1
  refine ⟨⟨?_, positive⟩, Token.leaves_of_before (List.pairwise_cons.mp others).1⟩
  exact Position.le_trans (Position.shift_le_shift behind (Nat.le_refl 1)) room

theorem SpellsType.reaches {type? : Option Name} {tokens rest : List Token}
    (spells : SpellsType type? tokens) {stop : Position} (leaves : Leaves stop (tokens ++ rest))
    (before : (tokens ++ rest).Pairwise Token.Before)
    (positive : ∀ token ∈ tokens, 1 ≤ token.position.column) :
    (∀ name ∈ type?, Reaches stop name.position) ∧ Leaves (type?.elim stop Name.stop) rest := by
  cases spells with
  | absent => exact ⟨nofun, leaves⟩
  | present name position first second =>
      obtain ⟨reaches, left⟩ := leaves.pair rfl before (positive _ (by simp))
      refine ⟨?_, left⟩
      rintro typeName ⟨rfl⟩
      exact reaches

theorem SpellsInitializer.reaches {initializer? : Option Value} {tokens rest : List Token}
    (spells : SpellsInitializer initializer? tokens) {stop : Position}
    (leaves : Leaves stop (tokens ++ rest))
    (before : (tokens ++ rest).Pairwise Token.Before)
    (positive : ∀ token ∈ tokens, 1 ≤ token.position.column) :
    (∀ value ∈ initializer?, Reaches stop value.position) ∧
      Leaves (initializer?.elim stop Value.stop) rest := by
  cases spells with
  | absent => exact ⟨nofun, leaves⟩
  | present value position first second =>
      obtain ⟨reaches, left⟩ := leaves.pair rfl before (positive _ (by simp))
      rw [← Value.text_eq] at left
      refine ⟨?_, left⟩
      rintro found ⟨rfl⟩
      exact reaches

/-- A declaration stands where its tokens do. -/
theorem Spells.spaced {declaration : Declaration} {newline : Bool} {tokens rest : List Token}
    (spells : Spells declaration tokens)
    (before : (⟨.keyword declaration.keyword, declaration.position, newline⟩ ::
      (tokens ++ rest)).Pairwise Token.Before)
    (positive : ∀ token ∈ (⟨.keyword declaration.keyword, declaration.position, newline⟩ ::
      tokens : List Token), 1 ≤ token.position.column) :
    declaration.Spaced ∧ Leaves declaration.stop rest := by
  obtain ⟨nameNewline, type, initializer⟩ := spells
  rename_i typeTokens valueTokens
  simp only [List.cons_append, List.append_assoc, List.forall_mem_cons, List.forall_mem_append]
    at before positive
  obtain ⟨start, nameColumn, typeColumns, valueColumns⟩ := positive
  obtain ⟨fromKeyword, others⟩ := List.pairwise_cons.mp before
  obtain ⟨fromName, afterName⟩ := List.pairwise_cons.mp others
  have apart := (fromKeyword _ List.mem_cons_self).apart rfl rfl
  have leavesName : Leaves declaration.name.stop _ := Token.leaves_of_before fromName
  obtain ⟨typeReaches, leavesType⟩ := type.reaches leavesName afterName typeColumns
  have afterType := (List.pairwise_append.mp afterName).2.1
  obtain ⟨valueReaches, leavesValue⟩ :=
    initializer.reaches leavesType afterType valueColumns
  refine ⟨⟨start, ⟨?_, nameColumn⟩, typeReaches, valueReaches⟩, leavesValue⟩
  rw [Position.shift_shift]
  exact apart

theorem Ends.le_position {ending rest : List Token} (ends : Ends ending rest) {stop : Position}
    (leaves : Leaves stop (ending ++ rest)) (before : (ending ++ rest).Pairwise Token.Before) :
    ∀ token ∈ rest, (stop.shift 1).le token.position := by
  intro token found
  cases ends with
  | stop => cases found
  | semicolon position newline =>
      have behind := (leaves _ List.mem_cons_self).1
      have room := ((List.pairwise_cons.mp before).1 token found).room
      rw [Lexeme.length_text_mark] at room
      exact Position.le_trans (Position.shift_le_shift behind (Nat.le_refl 1)) room
  | newline first rest after =>
      have lower := (leaves first List.mem_cons_self).2 after
      have below : (stop.shift 1).le first.position := Position.le_of_line_lt lower
      rcases List.mem_cons.mp found with rfl | later
      · exact below
      · have room := ((List.pairwise_cons.mp before).1 token later).room
        exact Position.le_trans below (Position.le_of_shift_le room)

/-! Declarations of a text. -/

/-- The tokens of a text behind a position. -/
structure Standing (cursor : Position) (tokens : List Token) : Prop where
  ahead : ∀ token ∈ tokens, cursor.le token.position
  before : tokens.Pairwise Token.Before
  positive : ∀ token ∈ tokens, 1 ≤ token.position.column

theorem Standing.suffix {cursor : Position} {tokens rest : List Token}
    (standing : Standing cursor tokens) (suffix : rest <:+ tokens) : Standing cursor rest where
  ahead token found := standing.ahead token (suffix.subset found)
  before := standing.before.sublist suffix.sublist
  positive token found := standing.positive token (suffix.subset found)

/-- A declaration that was read leaves the tokens after it behind its semicolon. -/
theorem Standing.spaced {cursor stop : Position} {keyword : Keyword} {token : Token}
    {rest : List Token} (standing : Standing cursor (token :: rest))
    (isKeyword : token.lexeme = .keyword keyword) {declaration : Declaration}
    (read : (readDeclaration stop keyword token.position rest).declaration? = some declaration) :
    cursor.le declaration.position ∧ declaration.Spaced ∧
      Standing (declaration.stop.shift 1)
        (readDeclaration stop keyword token.position rest).rest := by
  obtain ⟨rfl, samePosition, -, front, ending, tokens, spells, ends⟩ :=
    exists_spells_of_readDeclaration read
  have suffix := rest_readDeclaration_suffix stop declaration.keyword token.position rest
  have behind := (standing.suffix (List.suffix_cons token rest)).suffix suffix
  generalize (readDeclaration stop declaration.keyword token.position rest).rest = left at *
  have ahead := standing.ahead token List.mem_cons_self
  have start : token = ⟨.keyword declaration.keyword, declaration.position,
      token.afterNewline⟩ := by
    rw [← isKeyword, samePosition]
  rw [← samePosition] at ahead
  obtain ⟨-, before, positive⟩ := standing
  rw [start, tokens] at before positive
  obtain ⟨spaced, leaves⟩ := spells.spaced before fun target found =>
    positive target (List.mem_append_left _ found)
  have others := (List.pairwise_append.mp (List.pairwise_cons.mp before).2).2.1
  exact ⟨ahead, spaced, ends.le_position leaves others, behind.before, behind.positive⟩

theorem Standing.inPlace_readAll {cursor stop : Position} {tokens : List Token}
    (standing : Standing cursor tokens) : InPlace cursor (readAll stop tokens).declarations := by
  fun_induction readAll stop tokens generalizing cursor with
  | case1 => trivial
  | case2 token rest mark ih => exact ih (standing.suffix (List.suffix_cons token rest))
  | case3 token rest keyword isKeyword attempt =>
      rename_i ih
      cases read : attempt.declaration? with
      | none =>
          have resumed := resume_readDeclaration_suffix stop keyword token.position token rest
          simp only [Attempt.followedBy, read]
          exact ih (standing.suffix resumed)
      | some declaration =>
          obtain ⟨ahead, spaced, behind⟩ := standing.spaced isKeyword read
          simp only [Attempt.followedBy, read]
          exact ⟨ahead, spaced, ih (behind.suffix attempt.resume_suffix)⟩
  | case4 token rest others =>
      rename_i ih
      have resumed := (recover_suffix rest).trans (List.suffix_cons token rest)
      exact ih (standing.suffix resumed)

/-! Declarations of a text are legible. -/

theorem SpellsType.legible {type? : Option Name} {tokens : List Token}
    (spells : SpellsType type? tokens) (legible : ∀ token ∈ tokens, token.lexeme.Legible) :
    ∀ name ∈ type?, IsName name.text := by
  cases spells with
  | absent => exact nofun
  | present name position first second =>
      rintro found ⟨rfl⟩
      exact legible ⟨.name name.text, name.position, second⟩ (by simp)

theorem SpellsInitializer.legible {initializer? : Option Value} {tokens : List Token}
    (spells : SpellsInitializer initializer? tokens)
    (legible : ∀ token ∈ tokens, token.lexeme.Legible) :
    ∀ value ∈ initializer?, value.lexeme.Legible := by
  cases spells with
  | absent => exact nofun
  | present value position first second =>
      rintro found ⟨rfl⟩
      exact legible ⟨value.lexeme, value.position, second⟩ (by simp)

theorem Spells.legible {declaration : Declaration} {tokens : List Token}
    (spells : Spells declaration tokens) (legible : ∀ token ∈ tokens, token.lexeme.Legible) :
    declaration.Legible := by
  obtain ⟨newline, type, initializer⟩ := spells
  simp only [List.forall_mem_cons, List.forall_mem_append] at legible
  obtain ⟨name, types, values⟩ := legible
  exact ⟨name, type.legible types, initializer.legible values⟩

theorem legible_readAll {stop : Position} {tokens : List Token}
    (legible : ∀ token ∈ tokens, token.lexeme.Legible) :
    ∀ declaration ∈ (readAll stop tokens).declarations, declaration.Legible := by
  fun_induction readAll stop tokens with
  | case1 =>
      intro declaration found
      cases found
  | case2 token rest mark ih => exact ih fun found inside => legible found (.tail token inside)
  | case3 token rest keyword isKeyword attempt =>
      rename_i ih
      have resumed := resume_readDeclaration_suffix stop keyword token.position token rest
      intro declaration found
      rcases List.mem_append.mp found with here | later
      · have read : attempt.declaration? = some declaration := Option.mem_toList.mp here
        obtain ⟨-, -, -, front, ending, tokens, spells, -⟩ :=
          exists_spells_of_readDeclaration read
        refine spells.legible fun target inside => legible target (.tail token ?_)
        rw [tokens]
        exact List.mem_append_left _ inside
      · exact ih (fun target inside => legible target (resumed.subset inside)) declaration later
  | case4 token rest others =>
      rename_i ih
      have resumed := (recover_suffix rest).trans (List.suffix_cons token rest)
      exact ih fun target inside => legible target (resumed.subset inside)

/-! Texts. -/

theorem Scan.column_pos_of_mem {position : Position} {newline : Bool} {pieces : List Piece}
    (positive : 1 ≤ position.column) {token : Token}
    (found : token ∈ (ofPieces position newline pieces).tokens) : 1 ≤ token.position.column := by
  induction pieces generalizing position newline with
  | nil => cases found
  | cons piece rest ih =>
      rcases mem_tokens_cons found with ⟨-, here, -⟩ | ⟨flag, -, later⟩
      · rw [here]
        exact positive
      · exact ih (Position.column_pos_after positive piece.source) later

theorem standing_ofText {text : String} (plain : PlainStrings text.toList) :
    Standing .start (Scan.ofText text).tokens where
  ahead _ found := Scan.le_position_of_mem found
  before := Scan.pairwise_before plain .start false
  positive _ found := Scan.column_pos_of_mem (Nat.le_refl 1) found

theorem legible_parse (file : Path) (edition : Edition) (text : String) :
    ∀ declaration ∈ (parse file edition text).declarations, declaration.Legible :=
  legible_readAll fun _ found => Scan.legible_of_mem found

theorem inPlace_parse (file : Path) (edition : Edition) {text : String}
    (plain : PlainStrings text.toList) : InPlace .start (parse file edition text).declarations :=
  (standing_ofText plain).inPlace_readAll

/-- Printing the declarations of a text leaves all of them where they stood. -/
theorem parse_print_parse (source file : Path) (first edition : Edition) {text : String}
    (plain : PlainStrings text.toList) :
    parse file edition (parse source first text).print =
      ⟨file, edition, (parse source first text).declarations,
        (parse source first text).declarations.flatMap Declaration.findings⟩ := by
  have inPlace : InPlace Page.blank.cursor _ := inPlace_parse source first plain
  rw [print, parse_print (legible_parse source first text), Page.placeAll_eq_self inPlace]

/-- A script as it reads again after it was printed. -/
def reread (script : Script) : Script :=
  { script with findings := script.declarations.flatMap Declaration.findings }

/-! Texts without errors. -/

theorem flatMap_findings_eq_nil {file : Path} {edition : Edition} {text : String}
    (quiet : (parse file edition text).findings = []) :
    (parse file edition text).declarations.flatMap Declaration.findings = [] := by
  have found := List.append_eq_nil_iff.mp (Finding.sort_eq_nil_iff.mp quiet)
  rw [List.flatMap_eq_nil_iff]
  exact (derives_readAll found.2).findings_eq_nil

theorem reread_parse {file : Path} {edition : Edition} {text : String}
    (quiet : (parse file edition text).findings = []) :
    (parse file edition text).reread = parse file edition text := by
  rw [reread, flatMap_findings_eq_nil quiet, ← quiet]

end ShadowCheck.Script
