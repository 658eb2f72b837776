import ShadowCheck.Proofs.Script.Quoted

/-!
Lexemes as they are written. A legible lexeme is cut off, in front of text that
cannot lengthen it, as the one piece that stands for it; every lexeme that was
read from a text is legible.
-/

namespace ShadowCheck.Script

open Piece

namespace Lexeme

def text : Lexeme → String
  | keyword kind => kind.text
  | boolean value => if value then "true" else "false"
  | name text => text
  | quoted value quote => String.ofList (quote :: escape quote value.toList ++ [quote])
  | number text => text
  | mark kind => String.singleton kind.char

def isWord : Lexeme → Bool
  | keyword _ => true
  | boolean _ => true
  | name _ => true
  | _ => false

/-- The piece that a lexeme is written as. -/
def piece : Lexeme → Piece
  | quoted value quote => .quoted quote (escape quote value.toList) true
  | number text => .number text.toList
  | mark kind => .mark kind
  | lexeme => .word lexeme.text.toList

theorem source_piece (lexeme : Lexeme) : lexeme.piece.source = lexeme.text.toList := by
  cases lexeme <;> simp [piece, source, text]

end Lexeme

/-- What a text reads as, without the places. -/
def lexemesOf (text : String) : List Lexeme :=
  (Scan.ofText text).tokens.map Token.lexeme

/-- The text of a name: it reads as that name and nothing else. -/
def IsName (text : String) : Prop :=
  lexemesOf text = [.name text]

/-- The text of a number: it reads as that number and nothing else. -/
def IsNumber (text : String) : Prop :=
  lexemesOf text = [.number text]

instance (text : String) : Decidable (IsName text) :=
  inferInstanceAs (Decidable (_ = _))

instance (text : String) : Decidable (IsNumber text) :=
  inferInstanceAs (Decidable (_ = _))

/-- A lexeme whose text reads as the lexeme itself. -/
def Lexeme.Legible : Lexeme → Prop
  | name text => IsName text
  | number text => IsNumber text
  | quoted _ quote => isQuote quote
  | _ => True

theorem Scan.map_lexeme_tokens (position : Position) (newline : Bool) (pieces : List Piece) :
    (Scan.ofPieces position newline pieces).tokens.map Token.lexeme =
      pieces.filterMap Lexeme.ofPiece? := by
  induction pieces generalizing position newline with
  | nil => rfl
  | cons piece rest ih =>
      simp only [Scan.ofPieces, List.filterMap_cons]
      cases Lexeme.ofPiece? piece with
      | none => exact ih _ _
      | some lexeme => exact congrArg (List.cons lexeme) (ih _ _)

theorem lexemesOf_eq (text : String) :
    lexemesOf text = (split text.toList).filterMap Lexeme.ofPiece? :=
  Scan.map_lexeme_tokens _ _ _

namespace Lexeme

theorem text_ofWord (word : List Char) :
    (ofWord word).text = String.ofList word ∧ (ofWord word).isWord := by
  unfold ofWord
  split <;> rename_i same <;> simp [text, isWord, Keyword.text, same]

theorem text_of_ofPiece?_word {word : List Char} {lexeme : Lexeme}
    (read : ofPiece? (.word word) = some lexeme) : lexeme.text.toList = word := by
  cases read
  rw [(text_ofWord word).1, String.toList_ofList]

end Lexeme

theorem Lexeme.exists_word_of_isWord {piece : Piece} {lexeme : Lexeme}
    (read : ofPiece? piece = some lexeme) (isWord : lexeme.isWord) :
    ∃ letters, piece = .word letters := by
  cases piece with
  | word letters => exact ⟨letters, rfl⟩
  | mark kind => cases read; cases isWord
  | quoted quote body closed => cases read; cases isWord
  | number digits => cases read; cases isWord
  | _ => cases read

namespace Piece

theorem eq_nil_of_split_eq_nil {text : List Char} (empty : split text = []) : text = [] := by
  cases text with
  | nil => rfl
  | cons c rest =>
      rw [split_cons] at empty
      cases empty

theorem eq_nil_of_flatMap_source {pieces : List Piece} (sourced : ∀ piece ∈ pieces, piece.source ≠ [])
    (none : pieces.flatMap source = []) : pieces = [] := by
  cases pieces with
  | nil => rfl
  | cons first rest =>
      rw [List.flatMap_cons, List.append_eq_nil_iff] at none
      exact absurd none.1 (sourced first List.mem_cons_self)

/-- A piece that spans a text is all that the text is cut into. -/
theorem split_eq_singleton {text : List Char} {piece : Piece} (found : piece ∈ split text)
    (whole : piece.source = text) : split text = [piece] := by
  have sourced : ∀ other ∈ split text, other.source ≠ [] := fun _ => source_ne_nil_of_mem_split
  have joined := flatMap_source_split text
  obtain ⟨before, after, parts⟩ := List.append_of_mem found
  rw [parts] at sourced joined ⊢
  rw [List.flatMap_append, List.flatMap_cons, whole] at joined
  have lengths := congrArg List.length joined
  simp only [List.length_append] at lengths
  have noBefore : before = [] := by
    apply eq_nil_of_flatMap_source
    · intro other inside
      exact sourced other (List.mem_append_left _ inside)
    · apply List.eq_nil_of_length_eq_zero
      omega
  have noAfter : after = [] := by
    apply eq_nil_of_flatMap_source
    · intro other inside
      exact sourced other (List.mem_append_right _ (List.mem_cons_of_mem _ inside))
    · apply List.eq_nil_of_length_eq_zero
      omega
  rw [noBefore, noAfter]
  rfl

theorem next_of_split_singleton {c : Char} {rest : List Char} {piece : Piece}
    (single : split (c :: rest) = [piece]) : next c rest = (piece, []) := by
  rw [split_cons] at single
  have first := (List.cons.inj single).1
  have others := eq_nil_of_split_eq_nil (List.cons.inj single).2
  exact Prod.ext first others

theorem split_word_of_next {c : Char} {rest letters after : List Char}
    (cut : next c rest = (word letters, after)) : split letters = [word letters] := by
  have starts := startsWord_of_next cut
  rw [next_of_startsWord starts] at cut
  simp only [Prod.mk.injEq, word.injEq] at cut
  have parts : ∀ d ∈ rest.takeWhile isWordPart, isWordPart d = true :=
    fun d inside => List.all_eq_true.mp List.all_takeWhile d inside
  have whole : next c (rest.takeWhile isWordPart ++ []) =
      (word (c :: rest.takeWhile isWordPart), []) := next_word starts parts (by simp)
  rw [List.append_nil] at whole
  rw [← cut.1, split_cons, whole, split]

theorem split_number_of_next {c : Char} {rest digits after : List Char}
    (cut : next c rest = (number digits, after)) : split digits = [number digits] := by
  have digit := isDigit_of_next cut
  rw [next_of_isDigit digit] at cut
  simp only [Prod.mk.injEq, number.injEq] at cut
  rw [← cut.1, split_cons, next_of_isDigit digit, takeNumber_takeNumber, split]

theorem exists_of_split_word {text : List Char} (alone : split text = [word text]) :
    ∃ c front, text = c :: front ∧ StartsWord c ∧ ∀ d ∈ front, isWordPart d = true := by
  cases text with
  | nil => simp [split] at alone
  | cons c front =>
      have found := next_of_split_singleton alone
      have starts := startsWord_of_next found
      rw [next_of_startsWord starts] at found
      have same : front.takeWhile isWordPart = front := by
        simpa using congrArg Prod.fst found
      refine ⟨c, front, rfl, starts, ?_⟩
      rw [← same]
      intro d inside
      exact List.all_eq_true.mp List.all_takeWhile d inside

theorem exists_of_split_number {text : List Char} (alone : split text = [number text]) :
    ∃ c front, text = c :: front ∧ c.isDigit ∧ takeNumber false front = (front, []) := by
  cases text with
  | nil => simp [split] at alone
  | cons c front =>
      have found := next_of_split_singleton alone
      have digit := isDigit_of_next found
      rw [next_of_isDigit digit] at found
      simp only [Prod.mk.injEq, number.injEq, List.cons.injEq, true_and] at found
      exact ⟨c, front, rfl, digit, Prod.ext found.1 found.2⟩

theorem lineFeed_not_mem_word {text : List Char} (alone : split text = [word text]) :
    '\n' ∉ text := by
  obtain ⟨c, front, rfl, starts, parts⟩ := exists_of_split_word alone
  rintro (_ | ⟨_, inside⟩)
  · exact absurd starts.isWordPart (by decide)
  · exact absurd (parts '\n' inside) (by decide)

theorem lineFeed_not_mem_number {text : List Char} (alone : split text = [number text]) :
    '\n' ∉ text := by
  obtain ⟨c, front, rfl, digit, whole⟩ := exists_of_split_number alone
  have flat := lineFeed_not_mem_takeNumber false front
  rw [whole] at flat
  rintro (_ | ⟨_, inside⟩)
  · cases digit
  · exact flat inside

/-- A text that is a word by itself is a word in front of any text that cannot lengthen it. -/
theorem split_word_append {text rest : List Char} (alone : split text = [word text])
    (closes : Closes rest) : split (text ++ rest) = word text :: split rest := by
  obtain ⟨c, front, rfl, starts, parts⟩ := exists_of_split_word alone
  have stops : ∀ d ∈ rest.head?, isWordPart d = false := fun d here => (closes d here).1
  rw [List.cons_append, split_cons, next_word starts parts stops]

theorem split_number_append {text rest : List Char} (alone : split text = [number text])
    (closes : Closes rest) : split (text ++ rest) = number text :: split rest := by
  obtain ⟨c, front, rfl, digit, whole⟩ := exists_of_split_number alone
  rw [List.cons_append, split_cons, next_number digit whole closes]

theorem split_quoted_append {quote : Char} (isQuote : isQuote quote) (value rest : List Char) :
    split ((quoted quote (escape quote value) true).source ++ rest) =
      quoted quote (escape quote value) true :: split rest := by
  have taken := takeQuoted_escape isQuote value rest
  have spelled : (quoted quote (escape quote value) true).source ++ rest =
      quote :: (escape quote value ++ quote :: rest) := by
    simp [source]
  rw [spelled, split_cons, next_of_isQuote isQuote, taken]

theorem split_mark_append (kind : Mark) (rest : List Char) :
    split ((mark kind).source ++ rest) = mark kind :: split rest := by
  change split (kind.char :: rest) = _
  rw [split_cons, next_mark]

end Piece

theorem exists_mem_split_of_lexemesOf {text : String} {lexeme : Lexeme}
    (reads : lexemesOf text = [lexeme]) :
    ∃ piece ∈ split text.toList, Lexeme.ofPiece? piece = some lexeme := by
  rw [lexemesOf_eq] at reads
  have found : lexeme ∈ (split text.toList).filterMap Lexeme.ofPiece? := by
    rw [reads]
    exact List.mem_cons_self
  exact List.mem_filterMap.mp found

theorem IsName.split_eq {text : String} (isName : IsName text) :
    split text.toList = [.word text.toList] ∧ Lexeme.ofWord text.toList = .name text := by
  obtain ⟨piece, inside, asName⟩ := exists_mem_split_of_lexemesOf isName
  cases piece with
  | word word =>
      have whole : word = text.toList := (Lexeme.text_of_ofPiece?_word asName).symm
      subst whole
      exact ⟨split_eq_singleton inside rfl, Option.some.inj asName⟩
  | _ => cases asName

theorem IsNumber.split_eq {text : String} (isNumber : IsNumber text) :
    split text.toList = [.number text.toList] := by
  obtain ⟨piece, inside, asNumber⟩ := exists_mem_split_of_lexemesOf isNumber
  cases piece with
  | number digits =>
      have whole : digits = text.toList := by
        cases asNumber
        rw [String.toList_ofList]
      subst whole
      exact split_eq_singleton inside rfl
  | word word =>
      have isWord := (Lexeme.text_ofWord word).2
      rw [Option.some.inj asNumber] at isWord
      cases isWord
  | _ => cases asNumber

theorem Keyword.split_eq (keyword : Keyword) :
    split keyword.text.toList = [.word keyword.text.toList] := by
  cases keyword <;> decide +kernel

namespace Lexeme

theorem ofPiece?_piece {lexeme : Lexeme} (legible : lexeme.Legible) :
    ofPiece? lexeme.piece = some lexeme := by
  cases lexeme with
  | keyword keyword => cases keyword <;> rfl
  | boolean value => cases value <;> rfl
  | name text => exact congrArg some (IsName.split_eq legible).2
  | quoted value quote =>
      change some (quoted (String.ofList (unescape (escape quote value.toList))) quote) = _
      rw [unescape_escape legible, String.ofList_toList]
  | number text =>
      change some (number (String.ofList text.toList)) = _
      rw [String.ofList_toList]
  | mark kind => rfl

/-- A legible lexeme is cut off in front of any text that cannot lengthen it. -/
theorem split_append {lexeme : Lexeme} (legible : lexeme.Legible) {rest : List Char}
    (closes : Closes rest) :
    split (lexeme.text.toList ++ rest) = lexeme.piece :: split rest := by
  cases lexeme with
  | keyword keyword => exact split_word_append keyword.split_eq closes
  | boolean value =>
      have alone : split (boolean value).text.toList = [word (boolean value).text.toList] := by
        cases value <;> decide +kernel
      exact split_word_append alone closes
  | name text => exact split_word_append (IsName.split_eq legible).1 closes
  | quoted value quote =>
      rw [← source_piece]
      exact split_quoted_append legible value.toList rest
  | number text => exact split_number_append (IsNumber.split_eq legible) closes
  | mark kind =>
      rw [← source_piece]
      exact split_mark_append kind rest

theorem lineFeed_not_mem_text {lexeme : Lexeme} (legible : lexeme.Legible) :
    '\n' ∉ lexeme.text.toList := by
  cases lexeme with
  | keyword kind => cases kind <;> decide
  | boolean value => cases value <;> decide
  | name text => exact lineFeed_not_mem_word (IsName.split_eq legible).1
  | quoted value quote =>
      have inside := lineFeed_not_mem_escape legible value.toList
      have around := ne_lineFeed_of_isQuote legible
      simp [text, inside, around.symm]
  | number text => exact lineFeed_not_mem_number (IsNumber.split_eq legible)
  | mark kind => cases kind <;> decide

end Lexeme

end ShadowCheck.Script
