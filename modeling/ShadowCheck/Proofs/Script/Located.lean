import Mathlib.Data.List.DropRight
import ShadowCheck.Proofs.Script.Lexical

/-!
Where the tokens and the findings of a text stand. Everything that a scan gives is told
by the pieces of the text: a position by the text before it, and what a token has before
it by the pieces since the last token.
-/

namespace ShadowCheck

/-- The position behind a text: its lines are counted by their line feeds, and the
columns by what follows the last of them. -/
def Position.behind (text : List Char) : Position :=
  ⟨1 + text.count '\n', 1 + (text.rtakeWhile (· != '\n')).length⟩

theorem Position.behind_concat (text : List Char) (c : Char) :
    behind (text ++ [c]) = (behind text).advance c := by
  rw [behind, behind, advance, List.count_append, List.rtakeWhile_concat]
  by_cases lineFeed : c = '\n'
  · simp [lineFeed, Nat.add_assoc]
  · simp [lineFeed, Nat.add_assoc]

theorem Position.after_behind (front text : List Char) :
    (behind front).after text = behind (front ++ text) := by
  induction text generalizing front with
  | nil => rw [List.append_nil, after_nil]
  | cons c rest ih => rw [after_cons, ← behind_concat, ih, List.append_assoc, List.singleton_append]

namespace Script

open Piece

structure Spot where
  before : List Piece
  piece : Piece

def spots (before : List Piece) : List Piece → List Spot
  | [] => []
  | piece :: rest => ⟨before, piece⟩ :: spots (before ++ [piece]) rest

/-- What stands behind the last token of some pieces. -/
def gap (pieces : List Piece) : List Char :=
  (pieces.rtakeWhile fun piece => (Lexeme.ofPiece? piece).isNone).flatMap source

namespace Spot

variable (spot : Spot)

def position : Position :=
  .behind (spot.before.flatMap source)

def stop : Position :=
  .behind (spot.before.flatMap source ++ spot.piece.source)

def token? : Option Token :=
  (Lexeme.ofPiece? spot.piece).map fun lexeme =>
    ⟨lexeme, spot.position, decide ('\n' ∈ gap spot.before)⟩

def findings : List (Finding SyntaxIssue) :=
  match spot.piece with
  | .invalid _ => [⟨spot.position, .invalidCharacter⟩]
  | .quoted _ _ false => [⟨spot.stop, .unterminatedString⟩]
  | _ => []

theorem findings_eq : spot.piece.findings spot.position = spot.findings := by
  obtain ⟨before, piece⟩ := spot
  rw [findings, Piece.findings.eq_def]
  cases piece with
  | quoted quote body closed =>
      cases closed with
      | true => rfl
      | false => simp only [position, stop, Position.after_behind]
  | _ => rfl

end Spot

theorem gap_concat_of_none (before : List Piece) {piece : Piece}
    (passed : Lexeme.ofPiece? piece = none) :
    gap (before ++ [piece]) = gap before ++ piece.source := by
  rw [gap, List.rtakeWhile_concat, passed]
  simp [gap]

theorem gap_concat_of_some (before : List Piece) {piece : Piece} {lexeme : Lexeme}
    (read : Lexeme.ofPiece? piece = some lexeme) : gap (before ++ [piece]) = [] := by
  rw [gap, List.rtakeWhile_concat, read]
  rfl

/-- Between tokens, a line feed is always a blank of its own. -/
theorem Piece.Cuts.lineFeed_mem_iff {piece : Piece} {rest : List Char} (cuts : piece.Cuts rest)
    (passed : Lexeme.ofPiece? piece = none) : '\n' ∈ piece.source ↔ piece.isLineFeed = true := by
  cases cuts with
  | blank =>
      rw [source, List.mem_singleton, isLineFeed, beq_iff_eq]
      exact eq_comm
  | comment plain => simp [source, isLineFeed, plain]
  | @invalid c rest notBlank =>
      have other : '\n' ≠ c := by
        rintro rfl
        cases notBlank
      simp [source, isLineFeed, other]
  | _ => cases passed

theorem Scan.ofPieces_spots {text : List Char} {pieces : List Piece}
    (divides : Divides text pieces) (before : List Piece) :
    ofPieces (.behind (before.flatMap source)) (decide ('\n' ∈ gap before)) pieces =
      { tokens := (spots before pieces).filterMap Spot.token?
        stop := .behind (before.flatMap source ++ text)
        stopAfterNewline := decide ('\n' ∈ gap (before ++ pieces))
        findings := (spots before pieces).flatMap Spot.findings } := by
  induction divides generalizing before with
  | nil => simp [ofPieces, spots]
  | @cons piece rest pieces cuts others ih =>
      -- The position and the flag of the scan stay functions of the pieces already passed.
      have later := ih (before ++ [piece])
      rw [List.flatMap_append, List.flatMap_singleton, List.append_assoc, List.append_assoc,
        List.singleton_append] at later
      have found := Spot.findings_eq ⟨before, piece⟩
      rw [spots, List.flatMap_cons, List.filterMap_cons, ← found]
      cases read : Lexeme.ofPiece? piece with
      | none =>
          have flag : decide ('\n' ∈ gap (before ++ [piece])) =
              (decide ('\n' ∈ gap before) || piece.isLineFeed) := by
            rw [gap_concat_of_none before read, Bool.eq_iff_iff]
            simp [cuts.lineFeed_mem_iff read]
          rw [flag] at later
          simp only [ofPieces, read, Position.after_behind, later, Spot.token?, Option.map_none]
          rfl
      | some lexeme =>
          rw [gap_concat_of_some before read] at later
          simp only [ofPieces, read, Position.after_behind, Spot.token?, Option.map_some]
          have same : decide ('\n' ∈ ([] : List Char)) = false := rfl
          rw [same] at later
          rw [later]
          rfl

/-- A text is divided into pieces in one way, and its scan is what these tell: a token for
each lexeme, a finding for each invalid character and each open string, and the end. -/
theorem Scan.ofText_spots (text : String) :
    ∃ pieces, (∀ other, Divides text.toList other ↔ other = pieces) ∧
      pieces.flatMap source = text.toList ∧
      ofText text =
        { tokens := (spots [] pieces).filterMap Spot.token?
          stop := .behind text.toList
          stopAfterNewline := decide ('\n' ∈ gap pieces)
          findings := (spots [] pieces).flatMap Spot.findings } := by
  refine ⟨split text.toList, fun other => divides_iff, flatMap_source_split text.toList, ?_⟩
  exact ofPieces_spots (divides_iff.mpr rfl) []

end Script

end ShadowCheck
