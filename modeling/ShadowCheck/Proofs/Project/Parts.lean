import ShadowCheck.Project.Comment
import ShadowCheck.Proofs.Script.Quoted

/-!
What the text of a project file is made of: comments, string literals, and the characters
outside of both. A part is told by its own characters and by those that follow it, and no
text can be divided into parts in two ways.
-/

namespace ShadowCheck.Project.Comment

/-- What can stand between the quotes of a literal; a backslash takes any character with it. -/
inductive Between : List Char → Prop
  | nil : Between []
  | plain {c : Char} {rest : List Char} (notBackslash : c ≠ '\\') (notQuote : c ≠ '"')
      (others : Between rest) : Between (c :: rest)
  | escaped (c : Char) {rest : List Char} (others : Between rest) : Between ('\\' :: c :: rest)

inductive Part
  | plain (c : Char)
  | literal (inside : List Char) (closed : Bool)
  | line (inside : List Char)
  | block (inside : List Char) (closed : Bool)

namespace Part

def source : Part → List Char
  | plain c => [c]
  | literal inside closed => '"' :: (inside ++ if closed then ['"'] else [])
  | line inside => '/' :: '/' :: inside
  | block inside closed => '/' :: '*' :: (inside ++ if closed then ['*', '/'] else [])

def isComment : Part → Bool
  | line _ => true
  | block .. => true
  | _ => false

def isLiteral : Part → Bool
  | literal .. => true
  | _ => false

/-- Whether a part can stand before the rest of a text. -/
inductive Cuts : Part → List Char → Prop
  | plain {c : Char} {rest : List Char} (notQuote : c ≠ '"')
      (noComment : c = '/' → rest.head? ≠ some '/' ∧ rest.head? ≠ some '*') : Cuts (.plain c) rest
  | closed {inside rest : List Char} (between : Between inside) : Cuts (.literal inside true) rest
  | unclosed {inside : List Char} (between : Between inside) : Cuts (.literal inside false) []
  | escaping {inside : List Char} (between : Between inside) :
      Cuts (.literal (inside ++ ['\\']) false) []
  | line {inside rest : List Char} (oneLine : '\n' ∉ inside) (stops : ∀ c ∈ rest.head?, c = '\n') :
      Cuts (.line inside) rest
  | block {inside rest : List Char} (first : ¬ ['*', '/'] <:+: inside) :
      Cuts (.block inside true) rest
  | unclosedBlock {inside : List Char} (never : ¬ ['*', '/'] <:+: inside) :
      Cuts (.block inside false) []

/-- Whether a text is made of these parts. -/
inductive Divides : List Char → List Part → Prop
  | nil : Divides [] []
  | cons {part : Part} {rest : List Char} {parts : List Part} (cuts : part.Cuts rest)
      (others : Divides rest parts) : Divides (part.source ++ rest) (part :: parts)

theorem Divides.flatMap_source {text : List Char} {parts : List Part}
    (divides : Divides text parts) : parts.flatMap source = text := by
  induction divides with
  | nil => rfl
  | cons cuts others ih => rw [List.flatMap_cons, ih]

/-! The next part of a text. -/

/-- Takes what stands before the closing quote, or all there is; then tells whether there
was a quote, and gives the rest. -/
def takeLiteral : List Char → List Char × Bool × List Char
  | [] => ([], false, [])
  | ['\\'] => (['\\'], false, [])
  | '\\' :: c :: rest =>
      let (inside, closed, after) := takeLiteral rest
      ('\\' :: c :: inside, closed, after)
  | '"' :: rest => ([], true, rest)
  | c :: rest =>
      let (inside, closed, after) := takeLiteral rest
      (c :: inside, closed, after)

def takeBlock : List Char → List Char × Bool × List Char
  | [] => ([], false, [])
  | '*' :: '/' :: rest => ([], true, rest)
  | c :: rest =>
      let (inside, closed, after) := takeBlock rest
      (c :: inside, closed, after)

def next : Char → List Char → Part × List Char
  | '"', rest =>
      let (inside, closed, after) := takeLiteral rest
      (literal inside closed, after)
  | '/', '/' :: rest => (line (rest.takeWhile (· != '\n')), rest.dropWhile (· != '\n'))
  | '/', '*' :: rest =>
      let (inside, closed, after) := takeBlock rest
      (block inside closed, after)
  | c, rest => (plain c, rest)

theorem takeLiteral_append_of_between {inside : List Char} (between : Between inside)
    (rest : List Char) :
    takeLiteral (inside ++ rest) =
      (inside ++ (takeLiteral rest).1, (takeLiteral rest).2) := by
  induction between with
  | nil => rfl
  | plain notBackslash notQuote others ih =>
      rw [List.cons_append, takeLiteral, ih]
      · rfl
      · intro backslash
        exact absurd backslash notBackslash
      · intro c after backslash
        exact absurd backslash notBackslash
      · exact notQuote
  | escaped c others ih =>
      rw [List.cons_append, List.cons_append, takeLiteral, ih]
      rfl

/-- Before its first end a block comment is not closed, even together with what follows. -/
theorem not_ends_of_first {c : Char} {inside rest : List Char}
    (first : ¬ ['*', '/'] <+: c :: inside) (notSlash : rest.head? ≠ some '/') :
    ∀ after, c = '*' → inside ++ rest = '/' :: after → False := by
  rintro after rfl slash
  apply first
  cases inside with
  | nil => exact absurd (congrArg List.head? slash) notSlash
  | cons d inside =>
      cases slash
      exact ⟨inside, rfl⟩

theorem takeBlock_append_of_first {inside : List Char} (first : ¬ ['*', '/'] <:+: inside)
    {rest : List Char} (notSlash : rest.head? ≠ some '/') :
    takeBlock (inside ++ rest) = (inside ++ (takeBlock rest).1, (takeBlock rest).2) := by
  induction inside with
  | nil => rfl
  | cons c inside ih =>
      rw [List.infix_cons_iff, not_or] at first
      rw [List.cons_append, takeBlock, ih first.2]
      · rfl
      · exact not_ends_of_first first.1 notSlash

theorem next_of_cuts {part : Part} {rest : List Char} (cuts : part.Cuts rest) :
    ∃ c front, part.source = c :: front ∧ next c (front ++ rest) = (part, rest) := by
  cases cuts with
  | @plain c rest notQuote noComment =>
      refine ⟨c, [], rfl, ?_⟩
      rw [List.nil_append, next]
      · exact notQuote
      · rintro after rfl rfl
        exact (noComment rfl).1 rfl
      · rintro after rfl rfl
        exact (noComment rfl).2 rfl
  | @closed inside rest between =>
      refine ⟨'"', _, rfl, ?_⟩
      rw [if_pos rfl, List.append_assoc, next, takeLiteral_append_of_between between]
      simp [takeLiteral]
  | unclosed between =>
      refine ⟨'"', _, rfl, ?_⟩
      rw [if_neg Bool.false_ne_true, List.append_nil, next, takeLiteral_append_of_between between]
      simp [takeLiteral]
  | escaping between =>
      refine ⟨'"', _, rfl, ?_⟩
      rw [if_neg Bool.false_ne_true, List.append_nil, List.append_nil, next,
        takeLiteral_append_of_between between]
      rfl
  | @line inside rest oneLine stops =>
      refine ⟨'/', '/' :: inside, rfl, ?_⟩
      have all : ∀ c ∈ inside, (c != '\n') = true := by
        intro c found
        rw [bne_iff_ne]
        rintro rfl
        exact oneLine found
      have ends : ∀ c ∈ rest.head?, (c != '\n') = false := by
        intro c first
        rw [stops c first]
        rfl
      obtain ⟨taken, left⟩ := Script.Piece.takeWhile_of_stops all ends
      rw [List.cons_append, next, taken, left]
  | @block inside rest first =>
      refine ⟨'/', '*' :: _, rfl, ?_⟩
      rw [if_pos rfl, List.cons_append, List.append_assoc, next,
        takeBlock_append_of_first first (by simp)]
      simp [takeBlock]
  | unclosedBlock never =>
      refine ⟨'/', '*' :: _, rfl, ?_⟩
      rw [if_neg Bool.false_ne_true, List.cons_append, List.append_nil, next]
      rw [takeBlock_append_of_first never (by simp)]
      simp [takeBlock]

/-- What is taken stands between quotes, but for a backslash that ends the text. -/
theorem between_takeLiteral (text : List Char) :
    Between (takeLiteral text).1 ∧ ((takeLiteral text).2.1 = false → (takeLiteral text).2.2 = []) ∨
      ∃ inside, Between inside ∧ takeLiteral text = (inside ++ ['\\'], false, []) := by
  fun_induction takeLiteral text with
  | case1 => exact .inl ⟨.nil, fun _ => rfl⟩
  | case2 => exact .inr ⟨[], .nil, rfl⟩
  | case3 c rest inside closed after taken ih =>
      rw [taken] at ih
      rcases ih with ⟨between, ends⟩ | ⟨front, between, whole⟩
      · exact .inl ⟨.escaped c between, ends⟩
      · cases whole
        exact .inr ⟨'\\' :: c :: front, .escaped c between, rfl⟩
  | case4 => exact .inl ⟨.nil, nofun⟩
  | case5 c rest notLast notEscape notQuote inside closed after taken ih =>
      have notBackslash := Script.ne_backslash_of_bare notLast notEscape
      rw [taken] at ih
      rcases ih with ⟨between, ends⟩ | ⟨front, between, whole⟩
      · exact .inl ⟨.plain notBackslash notQuote between, ends⟩
      · cases whole
        exact .inr ⟨c :: front, .plain notBackslash notQuote between, rfl⟩

theorem cuts_takeLiteral (text : List Char) :
    Cuts (.literal (takeLiteral text).1 (takeLiteral text).2.1) (takeLiteral text).2.2 := by
  rcases between_takeLiteral text with ⟨between, ends⟩ | ⟨inside, between, whole⟩
  · cases closed : (takeLiteral text).2.1 with
    | true => exact .closed between
    | false =>
        rw [ends closed]
        exact .unclosed between
  · rw [whole]
    exact .escaping between

theorem append_takeLiteral (text : List Char) :
    (takeLiteral text).1 ++ (if (takeLiteral text).2.1 then ['"'] else []) ++
      (takeLiteral text).2.2 = text := by
  fun_induction takeLiteral text with
  | case1 => rfl
  | case2 => rfl
  | case3 c rest inside closed after taken ih =>
      rw [taken] at ih
      exact congrArg ('\\' :: c :: ·) ih
  | case4 => rfl
  | case5 c rest notLast notEscape notQuote inside closed after taken ih =>
      rw [taken] at ih
      exact congrArg (c :: ·) ih

theorem append_takeBlock (text : List Char) :
    (takeBlock text).1 ++ (if (takeBlock text).2.1 then ['*', '/'] else []) ++
      (takeBlock text).2.2 = text := by
  fun_induction takeBlock text with
  | case1 => rfl
  | case2 => rfl
  | case3 c rest notEnd inside closed after taken ih =>
      rw [taken] at ih
      exact congrArg (c :: ·) ih

/-- What is taken ends where a block comment is closed for the first time. -/
theorem first_takeBlock (text : List Char) : ¬ ['*', '/'] <:+: (takeBlock text).1 := by
  fun_induction takeBlock text with
  | case1 => simp
  | case2 => simp
  | case3 c rest notEnd inside closed after taken ih =>
      have whole := append_takeBlock rest
      rw [taken] at ih whole
      rw [List.infix_cons_iff, not_or]
      refine ⟨?_, ih⟩
      rintro ⟨front, same⟩
      cases same
      exact notEnd _ rfl whole.symm

theorem ends_takeBlock {text : List Char} (unclosed : (takeBlock text).2.1 = false) :
    (takeBlock text).2.2 = [] := by
  fun_induction takeBlock text with
  | case1 => rfl
  | case2 => cases unclosed
  | case3 c rest notEnd inside closed after taken ih =>
      rw [taken] at ih
      exact ih unclosed

theorem cuts_takeBlock (text : List Char) :
    Cuts (.block (takeBlock text).1 (takeBlock text).2.1) (takeBlock text).2.2 := by
  cases closed : (takeBlock text).2.1 with
  | true => exact .block (first_takeBlock text)
  | false =>
      rw [ends_takeBlock closed]
      exact .unclosedBlock (first_takeBlock text)

theorem cuts_next (c : Char) (rest : List Char) : (next c rest).1.Cuts (next c rest).2 := by
  fun_cases next c rest with
  | case1 rest inside closed after taken =>
      have cuts := cuts_takeLiteral rest
      rw [taken] at cuts
      exact cuts
  | case2 rest =>
      refine .line ?_ ?_
      · intro found
        have plain := List.all_eq_true.mp List.all_takeWhile _ found
        cases plain
      · intro d first
        simpa using Script.Piece.stops_dropWhile (· != '\n') rest d first
  | case3 rest inside closed after taken =>
      have cuts := cuts_takeBlock rest
      rw [taken] at cuts
      exact cuts
  | case4 c rest notQuote notLine notBlock =>
      refine .plain notQuote fun slash => ⟨fun first => ?_, fun first => ?_⟩
      · obtain ⟨after, same⟩ := List.head?_eq_some_iff.mp first
        exact notLine after slash same
      · obtain ⟨after, same⟩ := List.head?_eq_some_iff.mp first
        exact notBlock after slash same

theorem append_next (c : Char) (rest : List Char) :
    (next c rest).1.source ++ (next c rest).2 = c :: rest := by
  fun_cases next c rest with
  | case1 rest inside closed after taken =>
      have whole := append_takeLiteral rest
      rw [taken] at whole
      rw [source, List.cons_append, whole]
  | case2 rest => rw [source, List.cons_append, List.cons_append, List.takeWhile_append_dropWhile]
  | case3 rest inside closed after taken =>
      have whole := append_takeBlock rest
      rw [taken] at whole
      rw [source, List.cons_append, List.cons_append, whole]
  | case4 => rfl

theorem length_next_lt (c : Char) (rest : List Char) :
    (next c rest).2.length < rest.length + 1 := by
  obtain ⟨d, front, source, -⟩ := next_of_cuts (cuts_next c rest)
  have whole := congrArg List.length (append_next c rest)
  rw [source, List.length_append, List.length_cons, List.length_cons] at whole
  omega

theorem exists_divides : (text : List Char) → ∃ parts, Divides text parts
  | [] => ⟨[], .nil⟩
  | c :: rest => by
      have shorter := length_next_lt c rest
      obtain ⟨parts, divides⟩ := exists_divides (next c rest).2
      have whole := Divides.cons (cuts_next c rest) divides
      rw [append_next] at whole
      exact ⟨_, whole⟩
termination_by text => text.length

theorem Divides.unique {text : List Char} {left right : List Part} (divides : Divides text left)
    (others : Divides text right) : left = right := by
  induction divides generalizing right with
  | nil =>
      generalize same : ([] : List Char) = text at others
      cases others with
      | nil => rfl
      | cons cuts others =>
          obtain ⟨c, front, source, -⟩ := next_of_cuts cuts
          rw [source] at same
          cases same
  | @cons part rest parts cuts divides ih =>
      generalize same : part.source ++ rest = text at others
      obtain ⟨c, front, source, cut⟩ := next_of_cuts cuts
      rw [source, List.cons_append] at same
      cases others with
      | nil => cases same
      | cons otherCuts others =>
          obtain ⟨d, back, otherSource, otherCut⟩ := next_of_cuts otherCuts
          rw [otherSource, List.cons_append, List.cons.injEq] at same
          obtain ⟨rfl, sameRest⟩ := same
          rw [← sameRest, cut] at otherCut
          cases otherCut
          rw [ih others]

end Part

end ShadowCheck.Project.Comment
