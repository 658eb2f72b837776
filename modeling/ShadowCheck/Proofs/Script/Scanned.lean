import ShadowCheck.Proofs.Diagnostic.Order
import ShadowCheck.Proofs.Script.Legible

/-!
Scanning a text from a position on. Written lexemes and blanks are scanned one
after another; the tokens of any text stand in order, and leave each other as
much room as their written forms need.
-/

namespace ShadowCheck.Script

open Piece

namespace Scan

def ofChars (position : Position) (newline : Bool) (text : List Char) : Scan :=
  ofPieces position newline (split text)

theorem ofText_eq (text : String) : ofText text = ofChars .start false text.toList := rfl

def prepend (tokens : List Token) (scan : Scan) : Scan :=
  { scan with tokens := tokens ++ scan.tokens }

@[simp] theorem prepend_prepend (front tokens : List Token) (scan : Scan) :
    (scan.prepend tokens).prepend front = scan.prepend (front ++ tokens) := by
  simp [prepend]

@[simp] theorem tokens_prepend (tokens : List Token) (scan : Scan) :
    (scan.prepend tokens).tokens = tokens ++ scan.tokens := rfl

@[simp] theorem findings_prepend (tokens : List Token) (scan : Scan) :
    (scan.prepend tokens).findings = scan.findings := rfl

theorem ofChars_nil (position : Position) (newline : Bool) :
    (ofChars position newline []).tokens = [] ∧ (ofChars position newline []).findings = [] := by
  rw [ofChars, split]
  exact ⟨rfl, rfl⟩

theorem ofChars_blank {c : Char} (isBlank : Text.isBlank c) (position : Position)
    (newline : Bool) (rest : List Char) :
    ofChars position newline (c :: rest) =
      ofChars (position.advance c) (newline || c == '\n') rest := by
  unfold ofChars
  rw [split_cons, next_of_isBlank isBlank]
  rfl

/-- Blanks move the position; only line feeds among them are remembered. -/
theorem ofChars_blanks {blanks : List Char} (allBlank : ∀ c ∈ blanks, Text.isBlank c)
    (position : Position) (newline : Bool) (rest : List Char) :
    ofChars position newline (blanks ++ rest) =
      ofChars (position.after blanks) (newline || blanks.contains '\n') rest := by
  induction blanks generalizing position newline with
  | nil => simp
  | cons c blanks ih =>
      rw [List.cons_append, ofChars_blank (allBlank c List.mem_cons_self),
        ih fun d inside => allBlank d (List.mem_cons_of_mem c inside)]
      rw [List.contains_cons, Bool.or_assoc, Position.after_cons, BEq.comm]

theorem ofChars_mark (kind : Mark) (position : Position) (newline : Bool) (rest : List Char) :
    ofChars position newline (kind.char :: rest) =
      (ofChars (position.after [kind.char]) false rest).prepend
        [⟨.mark kind, position, newline⟩] := by
  unfold ofChars
  rw [split_cons, next_mark]
  rfl

/-- A written lexeme is scanned as a token. -/
theorem ofChars_lexeme {lexeme : Lexeme} (legible : lexeme.Legible) {rest : List Char}
    (closes : Closes rest) (position : Position) (newline : Bool) :
    ofChars position newline (lexeme.text.toList ++ rest) =
      (ofChars (position.after lexeme.text.toList) false rest).prepend
        [⟨lexeme, position, newline⟩] := by
  have quiet : lexeme.piece.findings position = [] := by
    cases lexeme <;> rfl
  unfold ofChars
  rw [Lexeme.split_append legible closes]
  simp only [ofPieces, Lexeme.ofPiece?_piece legible, Lexeme.source_piece, quiet, List.nil_append]
  rfl

/-- A token of a scan is that of the first piece, or comes from the pieces after it. -/
theorem mem_tokens_cons {position : Position} {newline : Bool} {piece : Piece}
    {rest : List Piece} {token : Token}
    (found : token ∈ (ofPieces position newline (piece :: rest)).tokens) :
    (Lexeme.ofPiece? piece = some token.lexeme ∧ token.position = position ∧
        token.afterNewline = newline) ∨
      ∃ flag : Bool, (flag → newline ∨ piece.isLineFeed) ∧
        token ∈ (ofPieces (position.after piece.source) flag rest).tokens := by
  simp only [ofPieces] at found
  cases read : Lexeme.ofPiece? piece with
  | none =>
      rw [read] at found
      exact .inr ⟨_, (Bool.or_eq_true _ _).mp, found⟩
  | some lexeme =>
      rw [read] at found
      rcases List.mem_cons.mp found with rfl | later
      · exact .inl ⟨rfl, rfl, rfl⟩
      · exact .inr ⟨false, fun isSet => absurd isSet Bool.false_ne_true, later⟩

end Scan

/-! What a text can hold. -/

/-- Every lexeme of a text reads back from the way it is written. -/
theorem Piece.legible_of_mem_split {text : List Char} {piece : Piece} {lexeme : Lexeme}
    (found : piece ∈ split text) (read : Lexeme.ofPiece? piece = some lexeme) :
    lexeme.Legible := by
  fun_induction split text with
  | case1 => cases found
  | case2 c rest ih =>
      rcases List.mem_cons.mp found with here | later
      · have cut : next c rest = (piece, (next c rest).2) := Prod.ext here.symm rfl
        cases piece with
        | mark kind => cases read; trivial
        | quoted quote body closed => cases read; exact (isQuote_of_next cut).1
        | number digits =>
            cases read
            change lexemesOf (String.ofList digits) = _
            rw [lexemesOf_eq, String.toList_ofList, split_number_of_next cut]
            rfl
        | word letters =>
            have reads : lexemesOf lexeme.text = [lexeme] := by
              rw [lexemesOf_eq, Lexeme.text_of_ofPiece?_word read, split_word_of_next cut]
              simp [read]
            have isWord : lexeme.isWord := by
              cases read
              exact (Lexeme.text_ofWord letters).2
            cases lexeme with
            | name text => exact reads
            | keyword kind => trivial
            | boolean value => trivial
            | _ => cases isWord
        | _ => cases read
      · exact ih later

theorem Scan.legible_of_mem {position : Position} {newline : Bool} {text : List Char}
    {token : Token} (found : token ∈ (ofChars position newline text).tokens) :
    token.lexeme.Legible := by
  have inside : token.lexeme ∈ (split text).filterMap Lexeme.ofPiece? := by
    rw [← map_lexeme_tokens position newline]
    exact List.mem_map_of_mem found
  obtain ⟨piece, cut, read⟩ := List.mem_filterMap.mp inside
  exact legible_of_mem_split cut read

end ShadowCheck.Script
