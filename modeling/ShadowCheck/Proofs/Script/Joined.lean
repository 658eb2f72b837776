import ShadowCheck.Proofs.Script.Located
import ShadowCheck.Proofs.Script.Turns

/-!
Texts joined by a semicolon on a line of its own. Wherever the first text breaks off, its
last token is cut off by the line feed and its last declaration is ended by the semicolon,
so both texts are read as they are read alone, the second one on lower lines.
-/

namespace ShadowCheck

/-- The position some lines further down, in the same column. -/
def Position.lowered (count : Nat) (position : Position) : Position :=
  ⟨position.line + count, position.column⟩

theorem Position.advance_lowered (count : Nat) (position : Position) (c : Char) :
    (position.lowered count).advance c = (position.advance c).lowered count := by
  unfold advance lowered
  split
  · rw [Nat.add_right_comm]
  · rfl

theorem Position.after_lowered (count : Nat) (position : Position) (text : List Char) :
    (position.lowered count).after text = (position.after text).lowered count := by
  induction text generalizing position with
  | nil => rfl
  | cons c rest ih => rw [after_cons, after_cons, advance_lowered, ih]

namespace Script

open Piece

/-! Cutting in front of a line feed. -/

/-- Whether the last backslash of what stands in a string escapes nothing. -/
def endsEscaping : List Char → Bool
  | [] => false
  | '\\' :: [] => true
  | '\\' :: _ :: rest => endsEscaping rest
  | _ :: rest => endsEscaping rest

/-- Whether a text ends in an open string, and there in a backslash that escapes nothing. -/
def leavesEscape (text : List Char) : Bool :=
  match (split text).getLast? with
  | some (.quoted _ body false) => endsEscaping body
  | _ => false

theorem Piece.Between.endsEscaping_append {quote : Char} {body : List Char}
    (between : Between quote body) (rest : List Char) :
    endsEscaping (body ++ rest) = endsEscaping rest := by
  induction between with
  | nil => rfl
  | @plain c body notBackslash notLineFeed notQuote others ih =>
      rw [List.cons_append, endsEscaping, ih]
      · exact fun same _ => notBackslash same
      · exact fun _ _ same _ => notBackslash same
  | escaped c others ih => exact ih

namespace Piece

/-- What stops a run at the end of a text also stops it if a line feed follows there. -/
theorem stops_append_lineFeed (test : Char → Prop) (lineFeed : test '\n') {rest : List Char}
    (stops : ∀ c ∈ rest.head?, test c) (more : List Char) :
    ∀ c ∈ (rest ++ '\n' :: more).head?, test c := by
  cases rest with
  | nil =>
      intro c here
      cases here
      exact lineFeed
  | cons d rest => exact stops

theorem Figures.append_lineFeed {figures rest : List Char} (others : Figures figures rest)
    (more : List Char) : Figures figures (rest ++ '\n' :: more) := by
  have plain : ¬ IsFigure '\n' := by simp [IsFigure]
  cases others with
  | whole all ends undotted =>
      refine .whole all (stops_append_lineFeed (¬ IsFigure ·) plain ends more) ?_
      intro c after same
      rcases rest with _ | ⟨d, _ | ⟨e, rest⟩⟩
      · cases same
      · cases same
        rfl
      · cases same
        exact undotted _ _ rfl
  | dotted all digit others ends =>
      exact .dotted all digit others (stops_append_lineFeed (¬ IsFigure ·) plain ends more)

/-- A line feed after a piece does not lengthen it, unless a backslash takes the line feed. -/
theorem Cuts.append_lineFeed {piece : Piece} {rest : List Char} (cuts : piece.Cuts rest)
    (closed : ∀ quote body, piece = .quoted quote body false → rest = [] →
      endsEscaping body = false) (more : List Char) : piece.Cuts (rest ++ '\n' :: more) := by
  cases cuts with
  | blank isBlank => exact .blank isBlank
  | comment plain ends => exact .comment plain (stops_append_lineFeed (· = '\n') rfl ends more)
  | mark kind => exact .mark kind _
  | closed isQuote between => exact .closed isQuote between
  | opened isQuote between ends =>
      exact .opened isQuote between (stops_append_lineFeed (· = '\n') rfl ends more)
  | @escaping quote body isQuote between =>
      have left := closed quote (body ++ ['\\']) rfl rfl
      rw [between.endsEscaping_append] at left
      cases left
  | number digit others => exact .number digit (others.append_lineFeed more)
  | @word first letters rest starts parts ends =>
      exact .word starts parts (stops_append_lineFeed (isWordPart · = false) (by decide) ends more)
  | @invalid c rest notBlank notMark notQuote notDigit notWord noComment =>
      refine .invalid notBlank notMark notQuote notDigit notWord ?_
      cases rest with
      | nil => exact fun _ => nofun
      | cons d rest => exact noComment

theorem Divides.append_lineFeed {text : List Char} {pieces : List Piece}
    (divides : Divides text pieces)
    (closed : ∀ quote body, pieces.getLast? = some (.quoted quote body false) →
      endsEscaping body = false) (more : List Char) :
    Divides (text ++ '\n' :: more) (pieces ++ split ('\n' :: more)) := by
  induction divides with
  | nil => exact divides_iff.mpr rfl
  | @cons piece rest pieces cuts others ih =>
      have whole := divides_iff.mp others
      have here : piece.Cuts (rest ++ '\n' :: more) := by
        apply cuts.append_lineFeed
        rintro quote body rfl rfl
        apply closed quote body
        rw [whole, split, List.getLast?_singleton]
      rw [List.append_assoc, List.cons_append]
      apply Divides.cons here
      apply ih
      intro quote body last
      apply closed quote body
      rw [List.getLast?_cons, last, Option.getD_some]

end Piece

/-- The text between the two texts: a semicolon on a line of its own. -/
def seam : List Char := ['\n', ';', '\n']

theorem split_seam (text : List Char) :
    split (seam ++ text) = .blank '\n' :: .mark .semicolon :: .blank '\n' :: split text := by
  have lineFeed (rest : List Char) : split ('\n' :: rest) = .blank '\n' :: split rest := by
    rw [split_cons, next_of_isBlank rfl]
  change split ('\n' :: ';' :: '\n' :: text) = _
  have semicolon : next ';' ('\n' :: text) = (.mark .semicolon, '\n' :: text) :=
    next_mark .semicolon _
  rw [lineFeed, split_cons, semicolon, lineFeed]

theorem split_append_seam {first : List Char} (closed : leavesEscape first = false)
    (second : List Char) :
    split (first ++ (seam ++ second)) = split first ++ split (seam ++ second) := by
  have divides : Divides first (split first) := divides_iff.mpr rfl
  refine (divides_iff.mp (divides.append_lineFeed ?_ _)).symm
  intro quote body last
  rw [leavesEscape, last] at closed
  exact closed

/-! Tokens elsewhere. -/

def Name.mapPosition (change : Position → Position) (name : Name) : Name :=
  { name with position := change name.position }

def Value.mapPosition (change : Position → Position) (value : Value) : Value :=
  value.moved (change value.position)

/-- A declaration with another position for each that it has. -/
def Declaration.mapPosition (change : Position → Position) (declaration : Declaration) :
    Declaration :=
  { keyword := declaration.keyword
    position := change declaration.position
    name := declaration.name.mapPosition change
    type? := declaration.type?.map (Name.mapPosition change)
    initializer? := declaration.initializer?.map (Value.mapPosition change) }

def Token.mapPosition (change : Position → Position) (token : Token) : Token :=
  { token with position := change token.position }

namespace Scan

theorem tokens_append (position : Position) (newline : Bool) (front rest : List Piece) :
    (ofPieces position newline (front ++ rest)).tokens =
      (ofPieces position newline front).tokens ++
        (ofPieces (ofPieces position newline front).stop
          (ofPieces position newline front).stopAfterNewline rest).tokens := by
  induction front generalizing position newline with
  | nil => rfl
  | cons piece front ih =>
      rw [List.cons_append]
      simp only [ofPieces]
      split
      · exact congrArg (List.cons _) (ih _ _)
      · exact ih _ _

theorem tokens_lowered (count : Nat) (position : Position) (newline : Bool)
    (pieces : List Piece) :
    (ofPieces (position.lowered count) newline pieces).tokens =
      (ofPieces position newline pieces).tokens.map
        (Token.mapPosition (Position.lowered count)) := by
  induction pieces generalizing position newline with
  | nil => rfl
  | cons piece rest ih =>
      simp only [ofPieces, Position.after_lowered]
      split
      · exact congrArg (List.cons _) (ih _ _)
      · exact ih _ _

theorem stop_ofText (text : String) : (ofText text).stop = .behind text.toList := by
  obtain ⟨pieces, -, -, scan⟩ := ofText_spots text
  rw [scan]

/-- The second text begins on the second line below the first, as on a new line. -/
theorem exists_tokens_joined {first : String} (closed : leavesEscape first.toList = false)
    (second : String) :
    ∃ position newline,
      (ofText (first ++ "\n;\n" ++ second)).tokens =
        (ofText first).tokens ++ ⟨.mark .semicolon, position, newline⟩ ::
          (ofPieces (Position.start.lowered (first.toList.count '\n' + 2)) true
            (split second.toList)).tokens := by
  have text : (first ++ "\n;\n" ++ second).toList =
      first.toList ++ (seam ++ second.toList) := by
    rw [String.toList_append, String.toList_append, List.append_assoc]
    rfl
  have below : (Position.behind first.toList).after seam =
      Position.start.lowered (first.toList.count '\n' + 2) := by
    have lines : 1 + first.toList.count '\n' + 1 + 1 = 1 + (first.toList.count '\n' + 2) := by
      omega
    exact congrArg (Position.mk · 1) lines
  refine ⟨((ofText first).stop.after ['\n']), true, ?_⟩
  rw [← below, ← stop_ofText]
  conv_lhs => rw [ofText, text, split_append_seam closed, split_seam, tokens_append]
  congr 1
  simp only [ofPieces, Lexeme.ofPiece?, isLineFeed, beq_self_eq_true, Bool.or_true]
  rfl

/-- Reading does not ask what stands before the first token. -/
theorem readAll_newline (stop position : Position) (first second : Bool) (pieces : List Piece) :
    readAll stop (ofPieces position first pieces).tokens =
      readAll stop (ofPieces position second pieces).tokens := by
  induction pieces generalizing position first second with
  | nil => rfl
  | cons piece rest ih =>
      simp only [ofPieces]
      split
      · rw [readAll_cons, readAll_cons]
        rfl
      · exact ih _ _ _

end Scan

/-! Reading tokens that stand elsewhere, in front of others. -/

/-- Whether there is nothing more, or a semicolon. -/
def Ended (tail : List Token) : Prop :=
  ∀ token ∈ tail.head?, token.lexeme = .mark .semicolon

theorem Ended.cases {tail : List Token} (ended : Ended tail) :
    tail = [] ∨ ∃ position newline rest, tail = ⟨.mark .semicolon, position, newline⟩ :: rest := by
  cases tail with
  | nil => exact .inl rfl
  | cons token rest =>
      obtain ⟨lexeme, position, newline⟩ := token
      cases ended _ rfl
      exact .inr ⟨position, newline, rest, rfl⟩

theorem Ended.readAll_tail {tail : List Token} (ended : Ended tail) (stop : Position) :
    readAll stop tail.tail = readAll stop tail := by
  obtain rfl | ⟨position, newline, rest, rfl⟩ := ended.cases
  · rfl
  · exact (readAll_semicolon stop position newline rest).symm

section

variable (change : Position → Position) {tail : List Token}

def displaced (tail tokens : List Token) : List Token :=
  tokens.map (Token.mapPosition change) ++ tail

theorem readName_displaced (ended : Ended tail) (tokens : List Token) :
    readName (displaced change tail tokens) =
      ((readName tokens).1.map (Name.mapPosition change),
        displaced change tail (readName tokens).2) := by
  cases tokens with
  | nil => obtain rfl | ⟨position, newline, rest, rfl⟩ := ended.cases <;> rfl
  | cons token rest =>
      obtain ⟨lexeme, position, newline⟩ := token
      cases lexeme <;> rfl

theorem readValue_displaced (ended : Ended tail) (tokens : List Token) :
    readValue (displaced change tail tokens) =
      ((readValue tokens).1.map (Value.mapPosition change),
        displaced change tail (readValue tokens).2) := by
  cases tokens with
  | nil => obtain rfl | ⟨position, newline, rest, rfl⟩ := ended.cases <;> rfl
  | cons token rest =>
      obtain ⟨lexeme, position, newline⟩ := token
      cases lexeme <;> rfl

theorem readType_colon (position : Position) (newline : Bool) (rest : List Token) :
    readType (⟨.mark .colon, position, newline⟩ :: rest) =
      ((readName rest).1.map some, (readName rest).2) := by
  rw [readType]
  split <;> rename_i read <;> rw [read] <;> rfl

theorem readInitializer_equals (position : Position) (newline : Bool) (rest : List Token) :
    readInitializer (⟨.mark .equals, position, newline⟩ :: rest) =
      ((readValue rest).1.map some, (readValue rest).2) := by
  rw [readInitializer]
  split <;> rename_i read <;> rw [read] <;> rfl

theorem map_some_map {α : Type} (move : α → α) (outcome : Except SyntaxIssue α) :
    (outcome.map move).map some = (outcome.map some).map (Option.map move) := by
  cases outcome <;> rfl

theorem readType_displaced (ended : Ended tail) (tokens : List Token) :
    readType (displaced change tail tokens) =
      ((readType tokens).1.map (Option.map (Name.mapPosition change)),
        displaced change tail (readType tokens).2) := by
  cases tokens with
  | nil => obtain rfl | ⟨position, newline, rest, rfl⟩ := ended.cases <;> rfl
  | cons token rest =>
      obtain ⟨lexeme, position, newline⟩ := token
      cases lexeme with
      | mark kind =>
          cases kind with
          | colon =>
              have moved : displaced change tail (⟨.mark .colon, position, newline⟩ :: rest) =
                  ⟨.mark .colon, change position, newline⟩ :: displaced change tail rest := rfl
              rw [moved, readType_colon, readType_colon, readName_displaced change ended,
                map_some_map]
          | _ => rfl
      | _ => rfl

theorem readInitializer_displaced (ended : Ended tail) (tokens : List Token) :
    readInitializer (displaced change tail tokens) =
      ((readInitializer tokens).1.map (Option.map (Value.mapPosition change)),
        displaced change tail (readInitializer tokens).2) := by
  cases tokens with
  | nil => obtain rfl | ⟨position, newline, rest, rfl⟩ := ended.cases <;> rfl
  | cons token rest =>
      obtain ⟨lexeme, position, newline⟩ := token
      cases lexeme with
      | mark kind =>
          cases kind with
          | equals =>
              have moved : displaced change tail (⟨.mark .equals, position, newline⟩ :: rest) =
                  ⟨.mark .equals, change position, newline⟩ :: displaced change tail rest := rfl
              rw [moved, readInitializer_equals, readInitializer_equals,
                readValue_displaced change ended, map_some_map]
          | _ => rfl
      | _ => rfl

theorem readHead_displaced (ended : Ended tail) (keyword : Keyword) (position : Position)
    (tokens : List Token) :
    readHead keyword (change position) (displaced change tail tokens) =
      ((readHead keyword position tokens).1.map (Declaration.mapPosition change),
        displaced change tail (readHead keyword position tokens).2) := by
  rw [readHead, readHead, readName_displaced change ended]
  obtain ⟨named, afterName⟩ := readName tokens
  cases named with
  | error issue => rfl
  | ok name =>
      simp only [Except.map, readType_displaced change ended]
      obtain ⟨typed, afterType⟩ := readType afterName
      cases typed with
      | error issue => rfl
      | ok type? =>
          simp only [Except.map, readInitializer_displaced change ended]
          obtain ⟨valued, afterValue⟩ := readInitializer afterType
          cases valued <;> rfl

/-- What is left of displaced tokens where `left` is left of the tokens as they are. At the
end, the semicolon behind them may be gone too. -/
def Resumes (tail left other : List Token) : Prop :=
  other = displaced change tail left ∨ left = [] ∧ other = tail.tail

theorem readEnd_displaced (ended : Ended tail) (tokens : List Token) :
    (∃ issue left, readEnd tokens = (.error issue, left) ∧
        readEnd (displaced change tail tokens) = (.error issue, displaced change tail left)) ∨
      ∃ left other, readEnd tokens = (.ok (), left) ∧
        readEnd (displaced change tail tokens) = (.ok (), other) ∧
        Resumes change tail left other := by
  cases tokens with
  | nil =>
      refine .inr ⟨[], tail.tail, rfl, ?_, .inr ⟨rfl, rfl⟩⟩
      obtain rfl | ⟨position, newline, rest, rfl⟩ := ended.cases <;> rfl
  | cons token rest =>
      obtain ⟨lexeme, position, newline⟩ := token
      by_cases isSemicolon : lexeme = .mark .semicolon
      · subst isSemicolon
        exact .inr ⟨rest, displaced change tail rest, rfl, rfl, .inl rfl⟩
      · have plain (place : Position) (others : List Token) :
            readEnd (⟨lexeme, place, newline⟩ :: others) =
              if newline then (.ok (), ⟨lexeme, place, newline⟩ :: others)
              else (.error .semicolonExpected, ⟨lexeme, place, newline⟩ :: others) := by
          rw [readEnd]
          rintro _ _ ⟨rfl⟩
          exact isSemicolon rfl
        have moved : displaced change tail (⟨lexeme, position, newline⟩ :: rest) =
            ⟨lexeme, change position, newline⟩ :: displaced change tail rest := rfl
        rw [moved, plain, plain]
        cases newline with
        | true => exact .inr ⟨_, _, rfl, rfl, .inl rfl⟩
        | false => exact .inl ⟨_, _, rfl, rfl⟩

theorem resumes_recover (ended : Ended tail) (tokens : List Token) :
    Resumes change tail (recover tokens) (recover (displaced change tail tokens)) := by
  induction tokens with
  | nil =>
      refine .inr ⟨rfl, ?_⟩
      obtain rfl | ⟨position, newline, rest, rfl⟩ := ended.cases <;> rfl
  | cons token rest ih =>
      obtain ⟨lexeme, position, newline⟩ := token
      cases lexeme with
      | keyword keyword => exact .inl rfl
      | mark kind =>
          cases kind with
          | semicolon => exact .inl rfl
          | _ => exact ih
      | _ => exact ih

theorem readDeclaration_displaced (ended : Ended tail) (stop elsewhere : Position)
    (keyword : Keyword) (position : Position) (tokens : List Token) :
    let attempt := readDeclaration stop keyword position tokens
    let other := readDeclaration elsewhere keyword (change position)
      (displaced change tail tokens)
    other.declaration? = attempt.declaration?.map (Declaration.mapPosition change) ∧
      Resumes change tail attempt.resume other.resume := by
  dsimp only
  rw [readDeclaration, readDeclaration, readHead_displaced change ended]
  obtain ⟨outcome, afterHead⟩ := readHead keyword position tokens
  cases outcome with
  | error issue => exact ⟨rfl, resumes_recover change ended afterHead⟩
  | ok declaration =>
      simp only [Except.map]
      obtain ⟨issue, left, failed, failedToo⟩ | ⟨left, other, read, readToo, resumes⟩ :=
        readEnd_displaced change ended afterHead
      · rw [failed, failedToo]
        exact ⟨rfl, resumes_recover change ended left⟩
      · rw [read, readToo]
        exact ⟨rfl, resumes⟩

theorem turn_displaced (ended : Ended tail) (stop elsewhere : Position) (token : Token)
    (rest : List Token) :
    let here := turn stop token rest
    let there := turn elsewhere (token.mapPosition change) (displaced change tail rest)
    there.read.declarations = here.read.declarations.map (Declaration.mapPosition change) ∧
      Resumes change tail here.left there.left := by
  obtain ⟨lexeme, position, newline⟩ := token
  cases lexeme with
  | keyword keyword =>
      obtain ⟨read, resumes⟩ :=
        readDeclaration_displaced change ended stop elsewhere keyword position rest
      refine ⟨?_, resumes⟩
      exact (congrArg Option.toList read).trans Option.toList_map
  | mark kind =>
      cases kind with
      | semicolon => exact ⟨rfl, .inl rfl⟩
      | _ => exact ⟨rfl, resumes_recover change ended rest⟩
  | _ => exact ⟨rfl, resumes_recover change ended rest⟩

/-- Displaced tokens give the same declarations at their places, and then what is behind
them gives its own. -/
theorem declarations_readAll_displaced (ended : Ended tail) (stop elsewhere : Position)
    (tokens : List Token) :
    (readAll elsewhere (displaced change tail tokens)).declarations =
      (readAll stop tokens).declarations.map (Declaration.mapPosition change) ++
        (readAll elsewhere tail).declarations := by
  cases tokens with
  | nil => rw [readAll_nil]; rfl
  | cons token rest =>
      obtain ⟨read, resumes⟩ := turn_displaced change ended stop elsewhere token rest
      have moved : displaced change tail (token :: rest) =
          token.mapPosition change :: displaced change tail rest := rfl
      have others : (readAll elsewhere (turn elsewhere (token.mapPosition change)
            (displaced change tail rest)).left).declarations =
          (readAll stop (turn stop token rest).left).declarations.map
            (Declaration.mapPosition change) ++ (readAll elsewhere tail).declarations := by
        obtain same | ⟨none, rest⟩ := resumes
        · rw [same]
          exact declarations_readAll_displaced ended stop elsewhere _
        · rw [rest, ended.readAll_tail, none, readAll_nil]
          rfl
      rw [moved, readAll_cons, readAll_cons, read, others, List.map_append, List.append_assoc]
termination_by tokens.length
decreasing_by exact length_left_turn_lt stop token rest

end

theorem Declaration.mapPosition_id (declaration : Declaration) :
    declaration.mapPosition id = declaration := by
  have value : Value.mapPosition id = id := funext Value.moved_position
  have name : Name.mapPosition id = id := rfl
  rw [mapPosition, value, name, Option.map_id, Option.map_id]
  rfl

/-- However a text breaks off, it does not change what a text behind a semicolon on a line of
its own is read as, and is not changed by it. -/
theorem declarations_parse_joined (file : Path) (edition : Edition) {first : String}
    (closed : leavesEscape first.toList = false) (second : String) :
    (parse file edition (first ++ "\n;\n" ++ second)).declarations =
      (parse file edition first).declarations ++
        (parse file edition second).declarations.map
          (Declaration.mapPosition (Position.lowered (first.toList.count '\n' + 2))) := by
  let stop := (Scan.ofText (first ++ "\n;\n" ++ second)).stop
  let lowered := Position.lowered (first.toList.count '\n' + 2)
  obtain ⟨position, newline, tokens⟩ := Scan.exists_tokens_joined closed second
  let below := (Scan.ofPieces (lowered .start) true (split second.toList)).tokens
  let tail : List Token := ⟨.mark .semicolon, position, newline⟩ :: below
  have behind : (readAll stop tail).declarations =
      (parse file edition second).declarations.map (Declaration.mapPosition lowered) := by
    have nothing : Ended [] := nofun
    have moved : (Scan.ofPieces (lowered .start) false (split second.toList)).tokens =
        displaced lowered [] (Scan.ofText second).tokens := by
      rw [displaced, List.append_nil]
      exact Scan.tokens_lowered _ .start false _
    rw [readAll_semicolon, Scan.readAll_newline stop (lowered .start) true false, moved,
      declarations_readAll_displaced lowered nothing (Scan.ofText second).stop stop, readAll_nil,
      List.append_nil]
    rfl
  have ended : Ended tail := by
    intro token here
    cases here
    rfl
  have front := declarations_readAll_displaced id ended (Scan.ofText first).stop stop
    (Scan.ofText first).tokens
  rw [List.map_congr_left fun declaration _ => declaration.mapPosition_id, List.map_id', behind,
    displaced] at front
  have same : (Scan.ofText first).tokens.map (Token.mapPosition id) =
      (Scan.ofText first).tokens := List.map_id _
  rw [same] at front
  change (readAll stop (Scan.ofText (first ++ "\n;\n" ++ second)).tokens).declarations = _
  rw [tokens]
  exact front

/-- The first text breaks off in a string, behind a backslash that is escaped itself. -/
theorem declarations_parse_joined_broken :
    leavesEscape "const a: \nlet b = 'x\\\\".toList = false ∧
      (parse ⟨"/a.ts"⟩ .latest
          ("const a: \nlet b = 'x\\\\" ++ "\n;\n" ++ "= 1\n var c")).declarations =
        [⟨.letWord, ⟨2, 1⟩, ⟨"b", ⟨2, 5⟩⟩, none, some (.quoted ⟨2, 9⟩ "x\\" '\'')⟩,
          ⟨.varWord, ⟨5, 2⟩, ⟨"c", ⟨5, 6⟩⟩, none, none⟩] := by
  have closed : leavesEscape "const a: \nlet b = 'x\\\\".toList = false := by decide +kernel
  refine ⟨closed, ?_⟩
  rw [declarations_parse_joined ⟨"/a.ts"⟩ .latest closed "= 1\n var c"]
  decide +kernel

end Script

end ShadowCheck
