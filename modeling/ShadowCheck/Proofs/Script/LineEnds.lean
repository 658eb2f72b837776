import ShadowCheck.Proofs.Script.Lexical
import ShadowCheck.Proofs.Script.Scanned
import ShadowCheck.Script.Parse
import ShadowCheck.Script.Print

/-!
Lines that end in a carriage return and a line feed. The carriage return is a blank of its
own at the end of its line, or the last character of a comment; either way it joins no other
piece, and the line feed after it takes the position to the beginning of the next line. So
the text is scanned, and read, as it is with bare line feeds.
-/

namespace ShadowCheck.Script

open Piece

/-- A text with a carriage return before each of its line feeds. -/
def withReturns (text : List Char) : List Char :=
  text.flatMap fun c => if c = '\n' then ['\r', '\n'] else [c]

/-- Whether a piece is no string, or a closed one with no line feed in it. -/
def Piece.endsOnLine : Piece → Bool
  | quoted _ body closed => closed && decide ('\n' ∉ body)
  | _ => true

def ClosedStrings (text : List Char) : Prop :=
  ∀ piece ∈ split text, piece.endsOnLine

instance (text : List Char) : Decidable (ClosedStrings text) :=
  inferInstanceAs (Decidable (∀ piece ∈ split text, piece.endsOnLine))

theorem withReturns_lineFeed (rest : List Char) :
    withReturns ('\n' :: rest) = '\r' :: '\n' :: withReturns rest := rfl

theorem withReturns_of_ne {c : Char} (plain : c ≠ '\n') (rest : List Char) :
    withReturns (c :: rest) = c :: withReturns rest := by
  rw [withReturns, List.flatMap_cons, if_neg plain]
  rfl

theorem withReturns_append {front : List Char} (plain : '\n' ∉ front) (rest : List Char) :
    withReturns (front ++ rest) = front ++ withReturns rest := by
  induction front with
  | nil => rfl
  | cons c front ih =>
      simp only [List.mem_cons, not_or] at plain
      rw [List.cons_append, withReturns_of_ne (Ne.symm plain.1), ih plain.2, List.cons_append]

namespace Piece

/-! Cutting in front of a carriage return. -/

/-- What stops a run in front of a text stops it as well if a carriage return comes first. -/
theorem stops_withReturns (test : Char → Prop) (carriageReturn : test '\r') {rest : List Char}
    (stops : ∀ c ∈ rest.head?, test c) : ∀ c ∈ (withReturns rest).head?, test c := by
  cases rest with
  | nil => exact stops
  | cons d rest =>
      by_cases lineFeed : d = '\n'
      · rw [lineFeed, withReturns_lineFeed]
        rintro c ⟨rfl⟩
        exact carriageReturn
      · rw [withReturns_of_ne lineFeed]
        exact stops

theorem Figures.lineFeed_not_mem {figures rest : List Char} (others : Figures figures rest) :
    '\n' ∉ figures := by
  have taken := lineFeed_not_mem_takeNumber false (figures ++ rest)
  rwa [takeNumber_of_figures others] at taken

theorem Figures.withReturns {figures rest : List Char} (others : Figures figures rest) :
    Figures figures (withReturns rest) := by
  have plain : ¬ IsFigure '\r' := by simp [IsFigure]
  cases others with
  | whole all ends undotted =>
      refine .whole all (stops_withReturns (¬ IsFigure ·) plain ends) ?_
      intro c after same
      cases rest with
      | nil => cases same
      | cons d rest =>
          by_cases lineFeed : d = '\n'
          · rw [lineFeed, withReturns_lineFeed] at same
            cases same
          · rw [withReturns_of_ne lineFeed] at same
            obtain ⟨rfl, others⟩ := List.cons.inj same
            have next : ∀ c ∈ rest.head?, c.isDigit = false := by
              intro c here
              obtain ⟨more, rfl⟩ := List.head?_eq_some_iff.mp here
              exact undotted c more rfl
            apply stops_withReturns (Char.isDigit · = false) rfl next
            rw [others]
            rfl
  | dotted all digit others ends =>
      exact .dotted all digit others (stops_withReturns (¬ IsFigure ·) plain ends)

/-- Unless a piece runs to the end of its line, the carriage return there is left to others. -/
theorem Cuts.withReturns {piece : Piece} {rest : List Char} (cuts : piece.Cuts rest)
    (whole : piece.endsOnLine) (noComment : ∀ body, piece ≠ .comment body) :
    piece.Cuts (withReturns rest) := by
  cases cuts with
  | blank isBlank => exact .blank isBlank
  | comment => exact absurd rfl (noComment _)
  | mark kind => exact .mark kind _
  | closed isQuote between => exact .closed isQuote between
  | opened => cases whole
  | escaping => cases whole
  | number digit others => exact .number digit others.withReturns
  | word starts parts ends =>
      exact .word starts parts (stops_withReturns (isWordPart · = false) (by decide) ends)
  | @invalid c rest notBlank notMark notQuote notDigit notWord noComment =>
      refine .invalid notBlank notMark notQuote notDigit notWord ?_
      intro slash again
      have stops : ∀ d ∈ rest.head?, d ≠ '/' := by
        rintro d here rfl
        exact noComment slash here
      exact stops_withReturns (· ≠ '/') (by decide) stops '/' again rfl

theorem Cuts.lineFeed_not_mem {piece : Piece} {rest : List Char} (cuts : piece.Cuts rest)
    (whole : piece.endsOnLine) (other : piece ≠ .blank '\n') : '\n' ∉ piece.source := by
  cases cuts with
  | @blank c =>
      rintro (_ | ⟨_, ⟨⟩⟩)
      exact other rfl
  | comment plain => simp [source, plain]
  | mark kind => cases kind <;> decide
  | @closed quote body rest isQuote between =>
      have flat : '\n' ∉ body := by simpa [endsOnLine] using whole
      have around := (ne_lineFeed_of_isQuote isQuote).symm
      simp [source, flat, around]
  | opened => cases whole
  | escaping => cases whole
  | number digit others =>
      rintro (_ | ⟨_, inside⟩)
      · cases digit
      · exact others.lineFeed_not_mem inside
  | word starts parts =>
      rintro (_ | ⟨_, inside⟩)
      · exact absurd starts.isWordPart (by decide)
      · exact absurd (parts _ inside) (by decide)
  | invalid notBlank =>
      rintro (_ | ⟨_, ⟨⟩⟩)
      cases notBlank

theorem Cuts.split_append {piece : Piece} {rest : List Char} (cuts : piece.Cuts rest) :
    split (piece.source ++ rest) = piece :: split rest :=
  (divides_iff.mp (.cons cuts (divides_iff.mpr rfl))).symm

end Piece

/-! Scanning with carriage returns. -/

namespace Scan

variable {rest : List Char} (position : Position) (newline : Bool)

theorem ofChars_comment {body : List Char} (cuts : (comment body).Cuts rest) :
    ofChars position newline ((comment body).source ++ rest) =
      ofChars (position.after (comment body).source) newline rest := by
  rw [ofChars, cuts.split_append]
  simp only [ofPieces, Lexeme.ofPiece?, isLineFeed, Bool.or_false]
  rfl

/-- A carriage return at the end of a comment is passed as the blank that it would be. -/
theorem ofChars_comment_withReturns {body : List Char} (cuts : (comment body).Cuts rest) :
    ofChars position newline ((comment body).source ++ withReturns rest) =
      ofChars (position.after (comment body).source) newline (withReturns rest) := by
  cases cuts with
  | comment plain ends =>
      cases rest with
      | nil => exact ofChars_comment position newline (.comment plain ends)
      | cons c rest =>
          have lineFeed : c = '\n' := ends c rfl
          subst lineFeed
          have longer : (comment (body ++ ['\r'])).Cuts ('\n' :: withReturns rest) := by
            refine .comment ?_ ?_
            · simp [plain]
            · rintro c ⟨rfl⟩
              rfl
          have source : (comment (body ++ ['\r'])).source = (comment body).source ++ ['\r'] := rfl
          have whole := ofChars_comment position newline longer
          rw [source, Position.after_append, List.append_assoc, List.singleton_append] at whole
          have blank : ofChars (position.after (comment body).source) newline
              ('\r' :: '\n' :: withReturns rest) =
                ofChars ((position.after (comment body).source).after ['\r']) (newline || false)
                  ('\n' :: withReturns rest) := ofChars_blank rfl _ _ _
          rw [withReturns_lineFeed, whole, blank, Bool.or_false]

/-- Where two texts are scanned alike from any position on, they are also scanned alike
behind a piece that both cut off. -/
theorem ofChars_congr {piece : Piece} {other : List Char} (cuts : piece.Cuts rest)
    (cutsToo : piece.Cuts other)
    (same : ∀ position newline, ofChars position newline rest = ofChars position newline other) :
    ofChars position newline (piece.source ++ rest) =
      ofChars position newline (piece.source ++ other) := by
  have pieces (position : Position) (newline : Bool) :
      ofPieces position newline (split rest) = ofPieces position newline (split other) :=
    same position newline
  rw [ofChars, ofChars, cuts.split_append, cutsToo.split_append]
  simp only [ofPieces, pieces]

theorem ofChars_lineFeed :
    ofChars position newline ('\n' :: rest) = ofChars (position.advance '\n') true rest := by
  rw [ofChars_blank rfl, beq_self_eq_true, Bool.or_true]

theorem ofChars_lineFeed_withReturns :
    ofChars position newline (withReturns ('\n' :: rest)) =
      ofChars (position.advance '\n') true (withReturns rest) := by
  have column : (position.advance '\r').advance '\n' = position.advance '\n' := rfl
  rw [withReturns_lineFeed, ofChars_blank rfl, ofChars_lineFeed, column]

/-- From any position on, the rest of a text is scanned alike with carriage returns: no
piece before a line feed gets longer, and the column at the line feed is not seen behind it. -/
theorem ofChars_withReturns {text : List Char} {pieces : List Piece}
    (divides : Divides text pieces) (whole : ∀ piece ∈ pieces, piece.endsOnLine)
    (position : Position) (newline : Bool) :
    ofChars position newline (withReturns text) = ofChars position newline text := by
  induction divides generalizing position newline with
  | nil => rfl
  | @cons piece rest pieces cuts others ih =>
      obtain ⟨here, later⟩ := List.forall_mem_cons.mp whole
      by_cases lineFeed : piece = .blank '\n'
      · subst lineFeed
        change ofChars position newline (withReturns ('\n' :: rest)) =
          ofChars position newline ('\n' :: rest)
        rw [ofChars_lineFeed_withReturns, ofChars_lineFeed, ih later]
      rw [withReturns_append (cuts.lineFeed_not_mem here lineFeed)]
      by_cases isComment : ∃ body, piece = .comment body
      · obtain ⟨body, rfl⟩ := isComment
        rw [ofChars_comment_withReturns position newline cuts, ih later,
          ofChars_comment position newline cuts]
      · have noComment (body : List Char) : piece ≠ .comment body :=
          fun same => isComment ⟨body, same⟩
        exact ofChars_congr position newline (cuts.withReturns here noComment) cuts (ih later)

theorem ofText_withReturns {text : String} (closed : ClosedStrings text.toList) :
    ofText (String.ofList (withReturns text.toList)) = ofText text := by
  rw [ofText_eq, ofText_eq, String.toList_ofList]
  exact ofChars_withReturns (divides_iff.mpr rfl) closed .start false

end Scan

/-- With carriage returns at the ends of its lines a text is read as the same script, and so
written out as the same text. -/
theorem parse_withReturns (file : Path) (edition : Edition) {text : String}
    (closed : ClosedStrings text.toList) :
    parse file edition (String.ofList (withReturns text.toList)) = parse file edition text ∧
      (parse file edition (String.ofList (withReturns text.toList))).print =
        (parse file edition text).print := by
  have same : parse file edition (String.ofList (withReturns text.toList)) =
      parse file edition text := by
    rw [parse, parse, Scan.ofText_withReturns closed]
  exact ⟨same, congrArg print same⟩

/-- Line feeds behind a number with a dot, a lone slash, a comment and an invalid character,
where only the next line ends the declaration. -/
def listing : String :=
  "let a = 1.\n/\nconst b // it's\nvar c = 'x\\n' #\nlet d"

theorem parse_withReturns_listing :
    ClosedStrings listing.toList ∧
      withReturns listing.toList =
        "let a = 1.\r\n/\r\nconst b // it's\r\nvar c = 'x\\n' #\r\nlet d".toList ∧
      (parse ⟨"/a.ts"⟩ .latest listing).declarations.map (·.name.position) =
        [⟨1, 5⟩, ⟨3, 7⟩, ⟨4, 5⟩, ⟨5, 5⟩] ∧
      parse ⟨"/a.ts"⟩ .latest (String.ofList (withReturns listing.toList)) =
        parse ⟨"/a.ts"⟩ .latest listing := by
  have closed : ClosedStrings listing.toList := by decide +kernel
  refine ⟨closed, by decide +kernel, by decide +kernel, ?_⟩
  exact (parse_withReturns ⟨"/a.ts"⟩ .latest closed).1

end ShadowCheck.Script
