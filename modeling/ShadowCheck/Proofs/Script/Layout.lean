import ShadowCheck.Proofs.Script.Page
import ShadowCheck.Proofs.Script.Scanned
import ShadowCheck.Proofs.Script.Spelling

/-!
What written declarations read as. `Page.place` gives a declaration the
positions at which a page writes it; the written text reads as the declarations
placed in this way, whatever positions they had before.
-/

namespace ShadowCheck.Script

open Piece

/-! Gaps between lexemes. -/

namespace Page

theorem Spaces.isBlank {text : List Char} (spaces : Spaces text) :
    ∀ c ∈ text, Text.isBlank c := by
  intro c found
  rcases spaces c found with rfl | rfl <;> decide

theorem Spaces.closes {text : List Char} (spaces : Spaces text) (ne_nil : text ≠ [])
    (rest : List Char) : Closes (text ++ rest) := by
  cases text with
  | nil => exact absurd rfl ne_nil
  | cons c text =>
      rintro d ⟨⟩
      rcases spaces c List.mem_cons_self with rfl | rfl <;> decide

theorem closes_mark (kind : Mark) (rest : List Char) : Closes (kind.char :: rest) := by
  rintro c ⟨⟩
  cases kind <;> decide

theorem IsGap.closes {kind : Mark} {gap : List Char} (isGap : IsGap [kind.char] gap)
    (rest : List Char) : Closes (gap ++ rest) := by
  obtain ⟨before, after, first, -, rfl⟩ := isGap.parts
  cases before with
  | nil => exact Page.closes_mark kind (after ++ rest)
  | cons c before =>
      rw [List.append_assoc, List.append_assoc]
      exact first.closes (List.cons_ne_nil c before) _

theorem IsGap.spaces {gap : List Char} (isGap : IsGap [] gap) : Spaces gap := by
  obtain ⟨before, after, first, second, rfl⟩ := isGap.parts
  rw [List.append_nil]
  exact first.append second

end Page

open Page

theorem Scan.exists_ofChars_gap {kind : Mark} {gap : List Char} (isGap : IsGap [kind.char] gap)
    (position : Position) (newline : Bool) :
    ∃ markPosition first second, ∀ rest,
      ofChars position newline (gap ++ rest) =
        (ofChars (position.after gap) second rest).prepend
          [⟨.mark kind, markPosition, first⟩] := by
  obtain ⟨before, after, first, second, rfl⟩ := isGap.parts
  refine ⟨position.after before, newline || before.contains '\n',
    false || after.contains '\n', ?_⟩
  intro rest
  rw [List.append_assoc, List.append_assoc, ofChars_blanks first.isBlank, List.singleton_append,
    ofChars_mark, ofChars_blanks second.isBlank, Position.after_append, Position.after_append]

theorem Scan.ofChars_extends {lexeme : Lexeme} (legible : lexeme.Legible) {page longer : Page}
    (grows : Extends page longer lexeme.text.toList) (newline : Bool) {rest : List Char}
    (closes : Closes rest) :
    ofChars page.cursor newline (lexeme.text.toList ++ rest) =
      (ofChars longer.cursor false rest).prepend [⟨lexeme, page.cursor, newline⟩] := by
  rw [ofChars_lexeme legible closes, grows.cursor]

/-! Declarations at the positions where they are written. -/

def Value.moved (position : Position) : Value → Value
  | quoted _ value quote => quoted position value quote
  | number _ text => number position text
  | boolean _ value => boolean position value
  | reference name => reference { name with position }

@[simp] theorem Value.position_moved (position : Position) (value : Value) :
    (value.moved position).position = position := by
  cases value <;> rfl

@[simp] theorem Value.lexeme_moved (position : Position) (value : Value) :
    (value.moved position).lexeme = value.lexeme := by
  cases value <;> rfl

@[simp] theorem Value.moved_moved (first second : Position) (value : Value) :
    (value.moved first).moved second = value.moved second := by
  cases value <;> rfl

@[simp] theorem Value.moved_position (value : Value) : value.moved value.position = value := by
  cases value <;> rfl

namespace Page

/-- A name where a page writes it after a separator. -/
def placeName (page : Page) (separator : Separator) (name : Name) : Name :=
  { name with position := (page.separate separator name.position).cursor }

def placeType (page : Page) : Option Name → Option Name :=
  Option.map (page.placeName .colon)

def placeInitializer (page : Page) : Option Value → Option Value :=
  Option.map fun value => value.moved (page.separate .equals value.position).cursor

/-! The pages on which the parts of a declaration come to stand. -/

def afterKeyword (page : Page) (declaration : Declaration) : Page :=
  (page.startDeclaration declaration.position).write declaration.keyword.text

def afterName (page : Page) (declaration : Declaration) : Page :=
  ((page.afterKeyword declaration).separate .blank declaration.name.position).write
    declaration.name.text

def afterType (page : Page) (declaration : Declaration) : Page :=
  (page.afterName declaration).writeType declaration.type?

def afterValue (page : Page) (declaration : Declaration) : Page :=
  (page.afterType declaration).writeInitializer declaration.initializer?

/-- A declaration with the positions at which a page writes it. -/
def place (page : Page) (declaration : Declaration) : Declaration :=
  { keyword := declaration.keyword
    position := (page.startDeclaration declaration.position).cursor
    name := (page.afterKeyword declaration).placeName .blank declaration.name
    type? := (page.afterName declaration).placeType declaration.type?
    initializer? := (page.afterType declaration).placeInitializer declaration.initializer? }

def placeAll (page : Page) : List Declaration → List Declaration
  | [] => []
  | declaration :: rest =>
      page.place declaration :: (page.writeDeclaration declaration).placeAll rest

end Page

def Declaration.unplaced (declaration : Declaration) : Declaration :=
  { keyword := declaration.keyword
    position := .start
    name := { declaration.name with position := .start }
    type? := declaration.type?.map fun name => { name with position := .start }
    initializer? := declaration.initializer?.map (Value.moved .start) }

theorem Page.unplaced_place (page : Page) (declaration : Declaration) :
    (page.place declaration).unplaced = declaration.unplaced := by
  cases declaration with
  | mk keyword position name type? initializer? =>
      cases type? <;> cases initializer? <;>
        simp [place, Declaration.unplaced, placeName, placeType, placeInitializer]

theorem Page.map_unplaced_placeAll (page : Page) (declarations : List Declaration) :
    (page.placeAll declarations).map Declaration.unplaced =
      declarations.map Declaration.unplaced := by
  induction declarations generalizing page with
  | nil => rfl
  | cons declaration rest ih =>
      rw [placeAll, List.map_cons, List.map_cons, unplaced_place, ih]

/-- A declaration whose names and values read back from the way they are written. -/
structure Declaration.Legible (declaration : Declaration) : Prop where
  name : IsName declaration.name.text
  type : ∀ name ∈ declaration.type?, IsName name.text
  initializer : ∀ value ∈ declaration.initializer?, value.lexeme.Legible

namespace Page

theorem exists_extends_startDeclaration (page : Page) (target : Position) :
    ∃ blanks, Spaces blanks ∧ Extends page (page.startDeclaration target) blanks := by
  unfold startDeclaration
  split
  · obtain ⟨blanks, spaces, moved, -⟩ := page.extends_moveTo target
    exact ⟨blanks, spaces, moved⟩
  split
  · exact ⟨[], nofun, .refl page⟩
  · exact ⟨['\n'], spaces_lines 1, page.extends_newLine⟩

theorem extends_lexeme (page : Page) {lexeme : Lexeme} (legible : lexeme.Legible) :
    Extends page (page.write lexeme.text) lexeme.text.toList :=
  page.extends_write (Lexeme.lineFeed_not_mem_text legible)

/-- What a page writes after a separator is scanned as the mark and the lexeme. -/
theorem exists_tokens_separate {separator : Separator} (isSeparator : IsSeparator separator)
    (kind : Mark) (mark : separator.mark.toList = [kind.char]) {lexeme : Lexeme}
    (legible : lexeme.Legible) (page : Page) (target : Position) :
    ∃ added position first second,
      Extends page ((page.separate separator target).write lexeme.text) added ∧
      (∀ rest, Closes (added ++ rest)) ∧
      ∀ rest, Closes rest →
        Scan.ofChars page.cursor false (added ++ rest) =
          (Scan.ofChars ((page.separate separator target).write lexeme.text).cursor
              false rest).prepend
            [⟨.mark kind, position, first⟩,
              ⟨lexeme, (page.separate separator target).cursor, second⟩] := by
  obtain ⟨gap, isGap, separated⟩ := extends_separate isSeparator page target
  have written := (page.separate separator target).extends_lexeme legible
  rw [mark] at isGap
  obtain ⟨position, first, second, scanned⟩ := Scan.exists_ofChars_gap isGap page.cursor false
  refine ⟨_, position, first, second, separated.trans written, ?_, ?_⟩
  · intro rest
    rw [List.append_assoc]
    exact isGap.closes _
  · intro rest closes
    rw [List.append_assoc, scanned, ← separated.cursor,
      Scan.ofChars_extends legible written second closes, Scan.prepend_prepend]
    rfl

theorem exists_tokens_writeType {type? : Option Name}
    (legible : ∀ name ∈ type?, IsName name.text) (page : Page) :
    ∃ added tokens, Extends page (page.writeType type?) added ∧
      SpellsType (page.placeType type?) tokens ∧
      (∀ rest, Closes rest → Closes (added ++ rest)) ∧
      ∀ rest, Closes rest →
        Scan.ofChars page.cursor false (added ++ rest) =
          (Scan.ofChars (page.writeType type?).cursor false rest).prepend tokens := by
  cases type? with
  | none => exact ⟨[], [], .refl page, .absent, fun _ closes => closes, fun _ _ => rfl⟩
  | some name =>
      have isName : (Lexeme.name name.text).Legible := legible name rfl
      obtain ⟨added, position, first, second, grows, closes, scanned⟩ :=
        exists_tokens_separate isSeparator_colon .colon (by decide) isName page
          name.position
      exact ⟨added, _, grows, .present (page.placeName .colon name) position first second,
        fun rest _ => closes rest, scanned⟩

theorem exists_tokens_writeInitializer {initializer? : Option Value}
    (legible : ∀ value ∈ initializer?, value.lexeme.Legible) (page : Page) :
    ∃ added tokens, Extends page (page.writeInitializer initializer?) added ∧
      SpellsInitializer (page.placeInitializer initializer?) tokens ∧
      (∀ rest, Closes rest → Closes (added ++ rest)) ∧
      ∀ rest, Closes rest →
        Scan.ofChars page.cursor false (added ++ rest) =
          (Scan.ofChars (page.writeInitializer initializer?).cursor false rest).prepend tokens := by
  cases initializer? with
  | none => exact ⟨[], [], .refl page, .absent, fun _ closes => closes, fun _ _ => rfl⟩
  | some value =>
      obtain ⟨added, position, first, second, grows, closes, scanned⟩ :=
        exists_tokens_separate isSeparator_equals .equals (by decide)
          (legible value rfl) page value.position
      have spells := SpellsInitializer.present
        (value.moved (page.separate .equals value.position).cursor) position first second
      rw [Value.lexeme_moved, Value.position_moved] at spells
      refine ⟨added, _, ?_, spells, fun rest _ => closes rest, ?_⟩
      · rw [writeInitializer, value.text_eq]
        exact grows
      · rw [writeInitializer, value.text_eq]
        exact scanned

theorem exists_tokens_afterName {declaration : Declaration}
    (isName : IsName declaration.name.text) (page : Page) :
    ∃ added first second,
      Extends page (page.afterName declaration) added ∧
      ∀ rest, Closes rest →
        Scan.ofChars page.cursor false (added ++ rest) =
          (Scan.ofChars (page.afterName declaration).cursor false rest).prepend
            [⟨.keyword declaration.keyword, (page.place declaration).position, first⟩,
              ⟨.name declaration.name.text, (page.place declaration).name.position, second⟩] := by
  have isKeyword : (Lexeme.keyword declaration.keyword).Legible := trivial
  have legibleName : (Lexeme.name declaration.name.text).Legible := isName
  obtain ⟨blanks, spaces, started⟩ :=
    page.exists_extends_startDeclaration declaration.position
  have worded : Extends _ (page.afterKeyword declaration) _ := extends_lexeme _ isKeyword
  obtain ⟨gap, isGap, separated⟩ :=
    extends_separate isSeparator_blank (page.afterKeyword declaration) declaration.name.position
  have named : Extends _ (page.afterName declaration) _ := extends_lexeme _ legibleName
  refine ⟨_, blanks.contains '\n', gap.contains '\n',
    started.trans (worded.trans (separated.trans named)), ?_⟩
  intro rest closes
  have closesGap := isGap.spaces.closes isGap.ne_nil
  simp only [List.append_assoc]
  rw [Scan.ofChars_blanks spaces.isBlank, ← started.cursor,
    Scan.ofChars_extends isKeyword worded _ (closesGap _),
    Scan.ofChars_blanks isGap.spaces.isBlank, ← separated.cursor,
    Scan.ofChars_extends legibleName named _ closes, Scan.prepend_prepend]
  simp only [Bool.false_or]
  rfl

/-- What a page writes for a declaration is scanned as tokens that spell the
declaration where the page placed it. -/
theorem exists_tokens_writeDeclaration {declaration : Declaration}
    (legible : declaration.Legible) (page : Page) :
    ∃ added newline tokens position,
      Extends page (page.writeDeclaration declaration) added ∧
      Spells (page.place declaration) tokens ∧
      ∀ rest,
        Scan.ofChars page.cursor false (added ++ rest) =
          (Scan.ofChars (page.writeDeclaration declaration).cursor false rest).prepend
            (⟨.keyword declaration.keyword, (page.place declaration).position, newline⟩ ::
              (tokens ++ [⟨.mark .semicolon, position, false⟩])) := by
  obtain ⟨nameText, first, second, named, nameScanned⟩ :=
    exists_tokens_afterName legible.name page
  obtain ⟨typeText, typeTokens, typed, spellsType, typeCloses, typeScanned⟩ :=
    exists_tokens_writeType legible.type (page.afterName declaration)
  obtain ⟨valueText, valueTokens, valued, spellsValue, valueCloses, valueScanned⟩ :=
    exists_tokens_writeInitializer legible.initializer (page.afterType declaration)
  have ended : Extends (page.afterValue declaration) (page.writeDeclaration declaration) [';'] :=
    extends_write _ (by decide)
  refine ⟨nameText ++ (typeText ++ (valueText ++ [';'])), first, _,
    (page.afterValue declaration).cursor, named.trans (typed.trans (valued.trans ended)),
    .mk second spellsType spellsValue, ?_⟩
  intro rest
  have closesEnd : Closes (';' :: rest) := closes_mark .semicolon rest
  have closesValue := valueCloses _ closesEnd
  have closesType := typeCloses _ closesValue
  have marked : Scan.ofChars (page.afterValue declaration).cursor false (';' :: rest) =
      (Scan.ofChars (page.writeDeclaration declaration).cursor false rest).prepend
        [⟨.mark .semicolon, (page.afterValue declaration).cursor, false⟩] := by
    rw [ended.cursor]
    exact Scan.ofChars_mark .semicolon _ false rest
  simp only [List.append_assoc, List.singleton_append]
  rw [nameScanned _ closesType, typeScanned _ closesValue, ← afterType,
    valueScanned _ closesEnd, ← afterValue, marked]
  simp only [Scan.prepend_prepend, List.append_assoc, List.cons_append, List.nil_append]
  rfl

/-- What a page writes for declarations reads as these declarations where the
page placed them. -/
theorem exists_tokens_writeAll {declarations : List Declaration}
    (legible : ∀ declaration ∈ declarations, declaration.Legible) (page : Page) :
    ∃ added tokens,
      Extends page (declarations.foldl writeDeclaration page) added ∧
      (∀ rest,
        Scan.ofChars page.cursor false (added ++ rest) =
          (Scan.ofChars (declarations.foldl writeDeclaration page).cursor false rest).prepend
            tokens) ∧
      ∀ stop,
        readAll stop tokens =
          ⟨page.placeAll declarations,
            (page.placeAll declarations).flatMap Declaration.findings⟩ := by
  induction declarations generalizing page with
  | nil => exact ⟨[], [], .refl page, fun rest => rfl, fun stop => by rw [readAll]; rfl⟩
  | cons declaration rest ih =>
      obtain ⟨legibleFirst, legibleRest⟩ := List.forall_mem_cons.mp legible
      obtain ⟨front, newline, tokens, position, starts, spells, scannedFirst⟩ :=
        exists_tokens_writeDeclaration legibleFirst page
      obtain ⟨added, others, grows, scanned, reads⟩ :=
        ih legibleRest (page.writeDeclaration declaration)
      refine ⟨front ++ added,
        ⟨.keyword declaration.keyword, (page.place declaration).position, newline⟩ ::
          (tokens ++ ⟨.mark .semicolon, position, false⟩ :: others),
        starts.trans grows, ?_, ?_⟩
      · intro after
        rw [List.append_assoc, scannedFirst, scanned, Scan.prepend_prepend,
          List.cons_append, List.append_assoc]
        rfl
      · intro stop
        have readsAll := spells.readAll_append (.semicolon position false others)
          (settles_semicolon position false others) stop newline
        rw [reads stop] at readsAll
        rw [placeAll, List.flatMap_cons]
        exact readsAll

end Page

theorem exists_toList_printDeclarations (declarations : List Declaration) :
    ∃ tail, (tail = [] ∨ tail = ['\n']) ∧
      (printDeclarations declarations).toList =
        (declarations.foldl Page.writeDeclaration .blank).text.toList ++ tail := by
  by_cases empty : (declarations.foldl Page.writeDeclaration .blank).text = ""
  · exact ⟨[], .inl rfl, by simp [printDeclarations, empty]⟩
  · exact ⟨['\n'], .inr rfl, by simp [printDeclarations, empty]⟩

/-- Printing leaves the declarations at the positions where they are written. -/
theorem parse_printDeclarations {declarations : List Declaration}
    (legible : ∀ declaration ∈ declarations, declaration.Legible) (file : Path)
    (edition : Edition) :
    parse file edition (printDeclarations declarations) =
      ⟨file, edition, Page.blank.placeAll declarations,
        Finding.sort ((Page.blank.placeAll declarations).flatMap Declaration.findings)⟩ := by
  obtain ⟨added, tokens, grows, scanned, reads⟩ :=
    Page.exists_tokens_writeAll legible .blank
  have text : (declarations.foldl Page.writeDeclaration .blank).text.toList = added :=
    grows.text
  obtain ⟨tail, isTail, printed⟩ := exists_toList_printDeclarations declarations
  rw [text] at printed
  have scan : Scan.ofText (printDeclarations declarations) =
      (Scan.ofChars (declarations.foldl Page.writeDeclaration .blank).cursor false tail).prepend
        tokens := by
    rw [Scan.ofText_eq, printed]
    exact scanned tail
  have quiet : ∀ position, (Scan.ofChars position false tail).tokens = [] ∧
      (Scan.ofChars position false tail).findings = [] := by
    intro position
    rcases isTail with rfl | rfl
    · exact Scan.ofChars_nil position false
    · rw [Scan.ofChars_blank (by decide)]
      exact Scan.ofChars_nil _ _
  simp only [parse, scan, Scan.tokens_prepend, Scan.findings_prepend, quiet, List.append_nil,
    List.nil_append, reads]

end ShadowCheck.Script
