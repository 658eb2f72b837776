import ShadowCheck.Proofs.Script.Scanned

/-!
How tokens stand in a text. Each token leaves room for its written form before
the next one, two words have something between them, and a token after a line
feed stands on a later line. Strings with a bare carriage return or null are
left out: these characters are longer when they are written back.
-/

namespace ShadowCheck.Script

open Piece

/-- Whether no string of a text holds a carriage return or a null without a backslash. -/
def PlainStrings (text : List Char) : Prop :=
  ∀ quote body closed, quoted quote body closed ∈ split text →
    '\r' ∉ unescaped body ∧ '\x00' ∉ unescaped body

def Piece.isPlain : Piece → Bool
  | quoted _ body _ => decide ('\r' ∉ unescaped body ∧ '\x00' ∉ unescaped body)
  | _ => true

theorem plainStrings_iff (text : List Char) :
    PlainStrings text ↔ ∀ piece ∈ split text, piece.isPlain := by
  constructor
  · intro plain piece found
    cases piece with
    | quoted quote body closed => exact decide_eq_true (plain quote body closed found)
    | _ => rfl
  · intro plain quote body closed found
    exact of_decide_eq_true (plain _ found)

instance (text : List Char) : Decidable (PlainStrings text) :=
  decidable_of_iff _ (plainStrings_iff text).symm

/-- What a token leaves to the tokens after it. -/
structure Token.Before (first second : Token) : Prop where
  room : (first.position.shift first.lexeme.text.length).le second.position
  apart : first.lexeme.isWord → second.lexeme.isWord →
    (first.position.shift (first.lexeme.text.length + 1)).le second.position
  lower : second.afterNewline → first.position.line < second.position.line

namespace Scan

theorem le_position_of_mem {position : Position} {newline : Bool} {pieces : List Piece}
    {token : Token} (found : token ∈ (ofPieces position newline pieces).tokens) :
    position.le token.position := by
  induction pieces generalizing position newline with
  | nil => cases found
  | cons piece rest ih =>
      rcases mem_tokens_cons found with ⟨-, here, -⟩ | ⟨flag, -, later⟩
      · rw [here]
        exact Position.le_refl position
      · exact Position.le_trans (Position.le_after position piece.source) (ih later)

theorem line_lt_of_isLineFeed {piece : Piece} (isLineFeed : piece.isLineFeed)
    (position : Position) : position.line < (position.after piece.source).line := by
  cases piece with
  | blank c =>
      have lineFeed : c = '\n' := by simpa [Piece.isLineFeed] using isLineFeed
      exact Position.line_lt_after position (by simp [source, lineFeed])
  | _ => cases isLineFeed

/-- A token that follows a line feed stands below every line that the scan had
reached before that line feed. -/
theorem line_lt_of_afterNewline {position : Position} {newline : Bool} {pieces : List Piece}
    {line : Nat} (reached : line ≤ position.line) (passed : newline → line < position.line)
    {token : Token} (found : token ∈ (ofPieces position newline pieces).tokens)
    (after : token.afterNewline) : line < token.position.line := by
  induction pieces generalizing position newline with
  | nil => cases found
  | cons piece rest ih =>
      have moved := Position.line_le_of_le (Position.le_after position piece.source)
      rcases mem_tokens_cons found with ⟨-, here, sameFlag⟩ | ⟨flag, why, later⟩
      · rw [here]
        exact passed (sameFlag ▸ after)
      · apply ih (Nat.le_trans reached moved) _ later
        intro isSet
        rcases why isSet with before | lineFeed
        · exact Nat.lt_of_lt_of_le (passed before) moved
        · exact Nat.lt_of_le_of_lt reached (line_lt_of_isLineFeed lineFeed position)

theorem line_lt_of_lineFeed {position : Position} {newline : Bool} {text : List Char}
    (lineFeed : ∀ c ∈ text.head?, c = '\n') {token : Token}
    (found : token ∈ (ofChars position newline text).tokens) :
    position.line < token.position.line := by
  cases text with
  | nil =>
      rw [ofChars, split] at found
      cases found
  | cons c rest =>
      have same : c = '\n' := lineFeed c rfl
      subst same
      rw [ofChars_blank rfl] at found
      have below := Position.line_le_of_le (le_position_of_mem found)
      have moved : position.line < (position.after ['\n']).line :=
        Position.line_lt_after position (by simp)
      exact Nat.lt_of_lt_of_le moved below

/-- A word does not begin where another word could have gone on. -/
theorem shift_one_le_of_isWord {position : Position} {newline : Bool} {text : List Char}
    (stops : ∀ c ∈ text.head?, isWordPart c = false) {token : Token}
    (found : token ∈ (ofChars position newline text).tokens) (isWord : token.lexeme.isWord) :
    (position.shift 1).le token.position := by
  cases text with
  | nil =>
      rw [ofChars, split] at found
      cases found
  | cons c rest =>
      have stop : isWordPart c = false := stops c rfl
      have moved : (position.shift 1).le (position.after (next c rest).1.source) := by
        have positive := List.length_pos_iff.mpr (source_next_ne_nil c rest)
        exact Position.le_trans
          (Position.shift_le_shift (Position.le_refl position) positive)
          (Position.shift_length_le_after position (next c rest).1.source)
      rw [ofChars, split_cons] at found
      rcases mem_tokens_cons found with ⟨read, -, -⟩ | ⟨flag, -, later⟩
      · obtain ⟨letters, cut⟩ := Lexeme.exists_word_of_isWord read isWord
        have starts := startsWord_of_next (Prod.ext cut rfl)
        rw [starts.isWordPart] at stop
        cases stop
      · exact Position.le_trans moved (le_position_of_mem later)

end Scan

/-- A piece is as long as its lexeme is written, save for a string that was left open. -/
theorem Piece.length_text_le {c : Char} {rest after : List Char} {piece : Piece}
    {lexeme : Lexeme} (cut : next c rest = (piece, after)) (plain : piece.isPlain)
    (read : Lexeme.ofPiece? piece = some lexeme) :
    lexeme.text.length ≤ piece.source.length ∨ ∀ d ∈ after.head?, d = '\n' := by
  rw [← String.length_toList]
  cases piece with
  | mark kind => cases read; exact .inl (by simp [Lexeme.text, source])
  | number digits => cases read; exact .inl (by simp [Lexeme.text, source])
  | word letters => exact .inl (by simp [Lexeme.text_of_ofPiece?_word read, source])
  | quoted quote body closed =>
      cases read
      obtain ⟨isQuote, rfl, taken⟩ := isQuote_of_next cut
      cases closed with
      | false =>
          have lineFeed := @head?_of_takeQuoted_open c rest
          rw [taken] at lineFeed
          exact .inr (lineFeed rfl)
      | true =>
          have bare := not_mem_unescaped_takeQuoted isQuote rest
          rw [taken] at bare
          obtain ⟨carriageReturn, null⟩ := of_decide_eq_true plain
          have bound := length_escape_unescape_le bare.1 bare.2 carriageReturn null
          left
          simp [Lexeme.text, source]
          omega
  | _ => cases read

namespace Scan

theorem before_of_next {c : Char} {text rest : List Char} {piece : Piece}
    (cut : next c text = (piece, rest)) (plain : piece.isPlain) {position : Position}
    {newline : Bool} {lexeme : Lexeme} (read : Lexeme.ofPiece? piece = some lexeme)
    {token : Token}
    (found : token ∈ (ofChars (position.after piece.source) false rest).tokens) :
    Token.Before ⟨lexeme, position, newline⟩ token := by
  have moved := le_position_of_mem found
  have lines := Position.line_le_of_le (Position.le_after position piece.source)
  rcases length_text_le cut plain read with fits | opened
  · have room : (position.shift lexeme.text.length).le (position.after piece.source) :=
      Position.le_trans (Position.shift_le_shift (Position.le_refl position) fits)
        (Position.shift_length_le_after position piece.source)
    refine ⟨Position.le_trans room moved, ?_, ?_⟩
    · intro firstWord secondWord
      obtain ⟨letters, rfl⟩ := Lexeme.exists_word_of_isWord read firstWord
      have apart := shift_one_le_of_isWord (stops_of_next cut) found secondWord
      rw [← Position.shift_shift]
      exact Position.le_trans (Position.shift_le_shift room (Nat.le_refl 1)) apart
    · intro after
      have below := line_lt_of_afterNewline (Nat.le_refl _)
        (fun flag => absurd flag Bool.false_ne_true) found after
      exact Nat.lt_of_le_of_lt lines below
  · have lower : position.line < token.position.line :=
      Nat.lt_of_le_of_lt lines (line_lt_of_lineFeed opened found)
    exact ⟨Position.le_of_line_lt lower, fun _ _ => Position.le_of_line_lt lower,
      fun _ => lower⟩

/-- The tokens of a text leave each other the room that they need. -/
theorem pairwise_before {text : List Char} (plain : PlainStrings text)
    (position : Position) (newline : Bool) :
    (ofChars position newline text).tokens.Pairwise Token.Before := by
  rw [plainStrings_iff] at plain
  unfold ofChars
  fun_induction split text generalizing position newline with
  | case1 => exact .nil
  | case2 c rest ih =>
      obtain ⟨first, others⟩ := List.forall_mem_cons.mp plain
      simp only [ofPieces]
      cases read : Lexeme.ofPiece? (next c rest).1 with
      | none => exact ih others _ _
      | some lexeme =>
          refine .cons ?_ (ih others _ _)
          intro token found
          exact before_of_next rfl first read found

end Scan

end ShadowCheck.Script
