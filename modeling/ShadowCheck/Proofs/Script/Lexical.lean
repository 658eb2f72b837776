import ShadowCheck.Proofs.Script.Quoted

/-!
What the pieces of a text are. A piece is told by its own characters and by those that
follow it, and no text can be divided into pieces in two ways.
-/

namespace ShadowCheck.Script

open ShadowCheck.Text

namespace Piece

/-- What stands between quotes, where a backslash takes any character with it. -/
inductive Between (quote : Char) : List Char → Prop
  | nil : Between quote []
  | plain {c : Char} {rest : List Char} (notBackslash : c ≠ '\\') (notLineFeed : c ≠ '\n')
      (notQuote : c ≠ quote) (others : Between quote rest) : Between quote (c :: rest)
  | escaped (c : Char) {rest : List Char} (others : Between quote rest) :
      Between quote ('\\' :: c :: rest)

def IsFigure (c : Char) : Prop :=
  c.isDigit = true ∨ c = '_'

/-- A number without its first digit, and what follows it. -/
inductive Figures : List Char → List Char → Prop
  | whole {figures rest : List Char} (all : ∀ c ∈ figures, IsFigure c)
      (stops : ∀ c ∈ rest.head?, ¬ IsFigure c)
      (undotted : ∀ c after, rest = '.' :: c :: after → c.isDigit = false) : Figures figures rest
  | dotted {figures fraction rest : List Char} {c : Char} (all : ∀ c ∈ figures, IsFigure c)
      (digit : c.isDigit = true) (others : ∀ c ∈ fraction, IsFigure c)
      (stops : ∀ c ∈ rest.head?, ¬ IsFigure c) : Figures (figures ++ '.' :: c :: fraction) rest

/-- Whether a piece can stand before the rest of a text. -/
inductive Cuts : Piece → List Char → Prop
  | blank {c : Char} {rest : List Char} (isBlank : isBlank c = true) : Cuts (.blank c) rest
  | comment {body rest : List Char} (plain : '\n' ∉ body) (stops : ∀ c ∈ rest.head?, c = '\n') :
      Cuts (.comment body) rest
  | mark (kind : Mark) (rest : List Char) : Cuts (.mark kind) rest
  | closed {quote : Char} {body rest : List Char} (isQuote : isQuote quote = true)
      (between : Between quote body) : Cuts (.quoted quote body true) rest
  | opened {quote : Char} {body rest : List Char} (isQuote : isQuote quote = true)
      (between : Between quote body) (stops : ∀ c ∈ rest.head?, c = '\n') :
      Cuts (.quoted quote body false) rest
  | escaping {quote : Char} {body : List Char} (isQuote : isQuote quote = true)
      (between : Between quote body) : Cuts (.quoted quote (body ++ ['\\']) false) []
  | number {first : Char} {figures rest : List Char} (digit : first.isDigit = true)
      (others : Figures figures rest) : Cuts (.number (first :: figures)) rest
  | word {first : Char} {letters rest : List Char} (starts : StartsWord first)
      (parts : ∀ c ∈ letters, isWordPart c = true)
      (stops : ∀ c ∈ rest.head?, isWordPart c = false) : Cuts (.word (first :: letters)) rest
  | invalid {c : Char} {rest : List Char} (notBlank : isBlank c = false)
      (notMark : Mark.ofChar? c = none) (notQuote : isQuote c = false)
      (notDigit : c.isDigit = false) (notWord : isWordStart c = false)
      (noComment : c = '/' → rest.head? ≠ some '/') : Cuts (.invalid c) rest

inductive Divides : List Char → List Piece → Prop
  | nil : Divides [] []
  | cons {piece : Piece} {rest : List Char} {pieces : List Piece} (cuts : piece.Cuts rest)
      (others : Divides rest pieces) : Divides (piece.source ++ rest) (piece :: pieces)

/-! Strings. -/

theorem takeQuoted_append_of_between {quote : Char} {body : List Char}
    (between : Between quote body) (rest : List Char) :
    takeQuoted quote (body ++ rest) =
      (body ++ (takeQuoted quote rest).1, (takeQuoted quote rest).2) := by
  induction between with
  | nil => rfl
  | plain notBackslash notLineFeed notQuote others ih =>
      rw [List.cons_append, takeQuoted_cons notBackslash notLineFeed notQuote, ih]
      rfl
  | escaped c others ih =>
      rw [List.cons_append, List.cons_append, takeQuoted, ih]
      rfl

theorem takeQuoted_of_lineFeed {quote : Char} {rest : List Char}
    (stops : ∀ c ∈ rest.head?, c = '\n') : takeQuoted quote rest = ([], false, rest) := by
  cases rest with
  | nil => rfl
  | cons c rest =>
      have lineFeed : c = '\n' := stops c rfl
      subst lineFeed
      rfl

/-- What is taken stands between quotes, but for a backslash that ends the text. -/
theorem between_takeQuoted (quote : Char) (text : List Char) :
    Between quote (takeQuoted quote text).1 ∨
      ∃ body, Between quote body ∧ takeQuoted quote text = (body ++ ['\\'], false, []) := by
  fun_induction takeQuoted quote text with
  | case1 => exact .inl .nil
  | case2 => exact .inr ⟨[], .nil, rfl⟩
  | case3 c rest tail ih =>
      rcases ih with between | ⟨body, between, whole⟩
      · exact .inl (.escaped c between)
      · refine .inr ⟨'\\' :: c :: body, .escaped c between, ?_⟩
        simp only [tail, whole]
        rfl
  | case4 => exact .inl .nil
  | case5 => exact .inl .nil
  | case6 c rest notLast notEscape notLineFeed notQuote tail ih =>
      have notBackslash := ne_backslash_of_bare notLast notEscape
      rcases ih with between | ⟨body, between, whole⟩
      · exact .inl (.plain notBackslash notLineFeed notQuote between)
      · refine .inr ⟨c :: body, .plain notBackslash notLineFeed notQuote between, ?_⟩
        simp only [tail, whole]
        rfl

theorem cuts_takeQuoted {quote : Char} (isQuote : isQuote quote = true) (text : List Char) :
    Cuts (.quoted quote (takeQuoted quote text).1 (takeQuoted quote text).2.1)
      (takeQuoted quote text).2.2 := by
  rcases between_takeQuoted quote text with between | ⟨body, between, whole⟩
  · cases closed : (takeQuoted quote text).2.1 with
    | true => exact .closed isQuote between
    | false => exact .opened isQuote between (head?_of_takeQuoted_open closed)
  · rw [whole]
    exact .escaping isQuote between

/-! Numbers. -/

theorem isFigure_iff {c : Char} : (c.isDigit || decide (c = '_')) = true ↔ IsFigure c := by
  simp [IsFigure]

theorem takeNumber_append_of_figures {figures : List Char} (all : ∀ c ∈ figures, IsFigure c)
    (dotted : Bool) (rest : List Char) :
    takeNumber dotted (figures ++ rest) =
      (figures ++ (takeNumber dotted rest).1, (takeNumber dotted rest).2) := by
  induction figures with
  | nil => rfl
  | cons c figures ih =>
      obtain ⟨here, others⟩ := List.forall_mem_cons.mp all
      rw [List.cons_append, takeNumber, if_pos (isFigure_iff.mpr here), ih others]
      rfl

theorem takeNumber_of_stops (dotted : Bool) {rest : List Char}
    (stops : ∀ c ∈ rest.head?, ¬ IsFigure c)
    (undotted : dotted = false → ∀ c after, rest = '.' :: c :: after → c.isDigit = false) :
    takeNumber dotted rest = ([], rest) := by
  cases rest with
  | nil => rfl
  | cons c rest =>
      have stop := stops c rfl
      rw [takeNumber, if_neg (fun figure => stop (isFigure_iff.mp figure)), if_neg]
      intro dot
      simp only [Bool.and_eq_true, decide_eq_true_eq, Bool.not_eq_true'] at dot
      obtain ⟨⟨rfl, plain⟩, digit⟩ := dot
      cases rest with
      | nil => cases digit
      | cons d after =>
          rw [List.head?_cons, Option.any_some, undotted plain d after rfl] at digit
          cases digit

theorem takeNumber_of_figures {figures rest : List Char} (others : Figures figures rest) :
    takeNumber false (figures ++ rest) = (figures, rest) := by
  cases others with
  | whole all stops undotted =>
      rw [takeNumber_append_of_figures all, takeNumber_of_stops false stops fun _ => undotted,
        List.append_nil]
  | @dotted figures fraction rest c all digit others stops =>
      have inside : ∀ d ∈ c :: fraction, IsFigure d :=
        List.forall_mem_cons.mpr ⟨.inl digit, others⟩
      have after : takeNumber true (c :: fraction ++ rest) = (c :: fraction, rest) := by
        rw [takeNumber_append_of_figures inside, takeNumber_of_stops true stops nofun,
          List.append_nil]
      have dot : takeNumber false ('.' :: (c :: fraction ++ rest)) =
          ('.' :: c :: fraction, rest) := by
        rw [takeNumber, if_neg (by decide), if_pos (by simp [digit]), after]
      rw [List.append_assoc, List.cons_append, takeNumber_append_of_figures all, dot]

theorem exists_run (text : List Char) :
    ∃ figures rest, text = figures ++ rest ∧ (∀ c ∈ figures, IsFigure c) ∧
      ∀ c ∈ rest.head?, ¬ IsFigure c := by
  induction text with
  | nil => exact ⟨[], [], rfl, nofun, nofun⟩
  | cons c text ih =>
      by_cases figure : IsFigure c
      · obtain ⟨figures, rest, parts, all, stops⟩ := ih
        exact ⟨c :: figures, rest, by rw [parts, List.cons_append],
          List.forall_mem_cons.mpr ⟨figure, all⟩, stops⟩
      · refine ⟨[], c :: text, rfl, nofun, ?_⟩
        rintro d ⟨rfl⟩
        exact figure

theorem exists_figures (text : List Char) : ∃ front rest, text = front ++ rest ∧ Figures front rest := by
  -- A dot is taken only once, so after it a run of figures is all that can follow.
  obtain ⟨figures, rest, parts, all, stops⟩ := exists_run text
  by_cases dotted : ∃ c after, rest = '.' :: c :: after ∧ c.isDigit = true
  · obtain ⟨c, after, rfl, digit⟩ := dotted
    obtain ⟨fraction, rest, rfl, others, ends⟩ := exists_run after
    refine ⟨figures ++ '.' :: c :: fraction, rest, ?_, .dotted all digit others ends⟩
    rw [parts, List.append_assoc, List.cons_append, List.cons_append]
  · refine ⟨figures, rest, parts, .whole all stops ?_⟩
    intro c after same
    exact Bool.eq_false_iff.mpr fun digit => dotted ⟨c, after, same, digit⟩

theorem figures_takeNumber (text : List Char) :
    Figures (takeNumber false text).1 (takeNumber false text).2 := by
  obtain ⟨front, rest, rfl, figures⟩ := exists_figures text
  rw [takeNumber_of_figures figures]
  exact figures

/-! The next piece of a text. -/

theorem cuts_next (c : Char) (rest : List Char) : (next c rest).1.Cuts (next c rest).2 := by
  unfold next
  split
  · rename_i isBlank
    exact .blank isBlank
  rename_i notBlank
  split
  · refine .comment ?_ ?_
    · intro found
      have plain := List.all_eq_true.mp List.all_takeWhile _ found
      cases plain
    · intro d first
      simpa using stops_dropWhile (· != '\n') rest.tail d first
  rename_i noComment
  split
  · exact .mark _ rest
  rename_i notMark
  split
  · rename_i isQuote
    exact cuts_takeQuoted isQuote rest
  rename_i notQuote
  split
  · rename_i digit
    exact .number digit (figures_takeNumber rest)
  rename_i notDigit
  split
  · rename_i wordStart
    refine .word ?_ (fun d found => List.all_eq_true.mp List.all_takeWhile _ found) (stops_dropWhile isWordPart rest)
    exact ⟨by simpa using notBlank, notMark, by simpa using notQuote, by simpa using notDigit,
      wordStart⟩
  · rename_i notWord
    refine .invalid ?_ notMark ?_ ?_ ?_ ?_
    · simpa using notBlank
    · simpa using notQuote
    · simpa using notDigit
    · simpa using notWord
    · rintro rfl slash
      exact noComment (by simp [slash])

theorem next_of_cuts {piece : Piece} {rest : List Char} (cuts : piece.Cuts rest) :
    ∃ c front, piece.source = c :: front ∧ next c (front ++ rest) = (piece, rest) := by
  cases cuts with
  | blank isBlank => exact ⟨_, [], rfl, next_of_isBlank isBlank rest⟩
  | @comment body rest plain stops =>
      refine ⟨'/', '/' :: body, rfl, ?_⟩
      have all : ∀ c ∈ body, (c != '\n') = true := by
        intro c found
        rw [bne_iff_ne]
        rintro rfl
        exact plain found
      have ends : ∀ c ∈ rest.head?, (c != '\n') = false := by
        intro c first
        rw [stops c first]
        rfl
      obtain ⟨taken, left⟩ := takeWhile_of_stops all ends
      have cut : next '/' ('/' :: body ++ rest) =
          (comment ((body ++ rest).takeWhile (· != '\n')),
            (body ++ rest).dropWhile (· != '\n')) := rfl
      rw [cut, taken, left]
  | mark kind => exact ⟨_, [], rfl, next_mark kind rest⟩
  | @closed quote body rest isQuote between =>
      refine ⟨quote, body ++ [quote], rfl, ?_⟩
      rw [next_of_isQuote isQuote, List.append_assoc, takeQuoted_append_of_between between,
        List.singleton_append, takeQuoted_quote isQuote]
      simp
  | @opened quote body rest isQuote between stops =>
      refine ⟨quote, body, by simp [source], ?_⟩
      rw [next_of_isQuote isQuote, takeQuoted_append_of_between between,
        takeQuoted_of_lineFeed stops]
      simp
  | @escaping quote body isQuote between =>
      refine ⟨quote, body ++ ['\\'], by simp [source], ?_⟩
      rw [next_of_isQuote isQuote, List.append_assoc, takeQuoted_append_of_between between]
      rfl
  | number digit others =>
      refine ⟨_, _, rfl, ?_⟩
      rw [next_of_isDigit digit, takeNumber_of_figures others]
  | word starts parts stops => exact ⟨_, _, rfl, next_word starts parts stops⟩
  | @invalid c rest notBlank notMark notQuote notDigit notWord noComment =>
      refine ⟨c, [], rfl, ?_⟩
      have others : (decide (c = '/') && rest.head? == some '/') = false := by
        simpa using noComment
      simp only [List.nil_append, next, notBlank, others, notMark, notQuote, notDigit, notWord]
      rfl

/-- A text can be divided into pieces in one way. -/
theorem divides_iff {text : List Char} {pieces : List Piece} :
    Divides text pieces ↔ pieces = split text := by
  constructor
  · intro divides
    induction divides with
    | nil => rw [split]
    | cons cuts others ih =>
        obtain ⟨c, front, source, cut⟩ := next_of_cuts cuts
        rw [source, List.cons_append, split_cons, cut, ih]
  · rintro rfl
    fun_induction split text with
    | case1 => exact .nil
    | case2 c rest ih =>
        have divides := Divides.cons (cuts_next c rest) ih
        rwa [source_next] at divides

end Piece

end ShadowCheck.Script
