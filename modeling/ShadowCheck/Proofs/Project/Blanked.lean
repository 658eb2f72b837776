import Mathlib.Data.List.Basic
import ShadowCheck.Proofs.Json.Reading
import ShadowCheck.Proofs.Project.Parts

/-!
What blanking leaves of a project file. It goes from part to part and changes nothing but
the comments, so a text without any stays as it is; a document has none.
-/

namespace ShadowCheck.Project.Comment

namespace Part

/-- A part as blanking leaves it: a comment becomes spaces and keeps its line feeds. -/
def blanked (part : Part) : List Char :=
  if part.isComment then part.source.map fun c => if c = '\n' then c else ' '
  else part.source

theorem blanked_of_isComment {part : Part} (comment : part.isComment = true) :
    part.blanked = part.source.map blankChar := by
  rw [blanked, if_pos comment]
  apply List.map_congr_left
  intro c _
  unfold blankChar
  split
  · rename_i lineFeed
    exact lineFeed
  · rfl

theorem blanked_of_not_isComment {part : Part} (noComment : part.isComment = false) :
    part.blanked = part.source := by
  rw [blanked, noComment, if_neg Bool.false_ne_true]

theorem blankFrom_string_append {inside : List Char} (between : Between inside)
    (rest : List Char) :
    blankFrom .string (inside ++ rest) = inside ++ blankFrom .string rest := by
  induction between with
  | nil => rfl
  | plain notBackslash notQuote others ih =>
      rw [List.cons_append, blankFrom, ih, List.cons_append]
      · intro c after backslash
        exact absurd backslash notBackslash
      · exact notQuote
  | escaped c others ih =>
      rw [List.cons_append, List.cons_append, blankFrom, ih]
      rfl

theorem blankFrom_lineComment_append {inside rest : List Char} (oneLine : '\n' ∉ inside)
    (stops : ∀ c ∈ rest.head?, c = '\n') :
    blankFrom .lineComment (inside ++ rest) =
      inside.map blankChar ++ blankFrom .nothing rest := by
  induction inside with
  | nil =>
      cases rest with
      | nil => rfl
      | cons c rest =>
          have lineFeed : c = '\n' := stops c rfl
          subst lineFeed
          rfl
  | cons c inside ih =>
      rw [List.mem_cons, not_or] at oneLine
      have notLineFeed := Ne.symm oneLine.1
      rw [List.cons_append, blankFrom, ih oneLine.2, List.map_cons, blankChar, if_neg notLineFeed]
      · rfl
      · exact notLineFeed

theorem blankFrom_blockComment_append {inside : List Char} (first : ¬ ['*', '/'] <:+: inside)
    {rest : List Char} (notSlash : rest.head? ≠ some '/') :
    blankFrom .blockComment (inside ++ rest) =
      inside.map blankChar ++ blankFrom .blockComment rest := by
  induction inside with
  | nil => rfl
  | cons c inside ih =>
      rw [List.infix_cons_iff, not_or] at first
      rw [List.cons_append, blankFrom, ih first.2]
      · rfl
      · exact not_ends_of_first first.1 notSlash

/-- Blanking goes from part to part. -/
theorem Cuts.blankFrom_append {part : Part} {rest : List Char} (cuts : part.Cuts rest) :
    blankFrom .nothing (part.source ++ rest) = part.blanked ++ blankFrom .nothing rest := by
  cases cuts with
  | @plain c rest notQuote noComment =>
      rw [blanked_of_not_isComment rfl, source, List.singleton_append, blankFrom]
      · rfl
      · exact notQuote
      · rintro after rfl rfl
        exact (noComment rfl).1 rfl
      · rintro after rfl rfl
        exact (noComment rfl).2 rfl
  | closed between =>
      rw [blanked_of_not_isComment rfl, source, if_pos rfl, List.cons_append, List.append_assoc,
        blankFrom, blankFrom_string_append between]
      simp [blankFrom]
  | unclosed between =>
      have whole := blankFrom_string_append between []
      rw [blanked_of_not_isComment rfl]
      simpa [blankFrom, source] using whole
  | escaping between =>
      have whole := blankFrom_string_append between ['\\']
      rw [blanked_of_not_isComment rfl]
      simpa [blankFrom, source] using whole
  | line oneLine stops =>
      rw [blanked_of_isComment rfl, source, List.cons_append, List.cons_append, blankFrom,
        blankFrom_lineComment_append oneLine stops]
      rfl
  | block first =>
      rw [blanked_of_isComment rfl, source, if_pos rfl, List.cons_append, List.cons_append,
        List.append_assoc, blankFrom, blankFrom_blockComment_append first (by simp)]
      simp [blankFrom, blankChar]
  | unclosedBlock never =>
      have whole := blankFrom_blockComment_append never (by simp : [].head? ≠ some '/')
      rw [blanked_of_isComment rfl]
      simpa [blankFrom, source, blankChar] using whole

theorem Divides.blankFrom_eq {text : List Char} {parts : List Part}
    (divides : Divides text parts) : blankFrom .nothing text = parts.flatMap blanked := by
  induction divides with
  | nil => rfl
  | cons cuts others ih => rw [cuts.blankFrom_append, ih, List.flatMap_cons]

theorem Divides.blankFrom_eq_self {text : List Char} {parts : List Part}
    (divides : Divides text parts) (noComment : ∀ part ∈ parts, part.isComment = false) :
    blankFrom .nothing text = text := by
  rw [divides.blankFrom_eq, ← divides.flatMap_source]
  apply List.flatMap_congr
  intro part found
  exact blanked_of_not_isComment (noComment part found)

/-! Blanking again. -/

theorem head?_of_blankFrom {inside : Inside} (outside : inside = .nothing) {text : List Char}
    {c : Char} (notSpace : c ≠ ' ') (first : (blankFrom inside text).head? = some c) :
    text.head? = some c := by
  revert first
  fun_cases blankFrom inside text
  case case3 | case4 => exact fun first => absurd (Option.some.inj first).symm notSpace
  all_goals cases outside <;> simp

/-- What is left of a comment opens nothing with a character before it. -/
theorem Cuts.of_blankFrom {part : Part} {rest : List Char} (cuts : part.Cuts rest)
    (noComment : part.isComment = false) : part.Cuts (blankFrom .nothing rest) := by
  cases cuts with
  | plain notQuote opensNothing =>
      refine .plain notQuote fun slash => ⟨fun first => ?_, fun first => ?_⟩
      · exact (opensNothing slash).1 (head?_of_blankFrom rfl (by decide) first)
      · exact (opensNothing slash).2 (head?_of_blankFrom rfl (by decide) first)
  | closed between => exact .closed between
  | unclosed between => exact .unclosed between
  | escaping between => exact .escaping between
  | line => cases noComment
  | block => cases noComment
  | unclosedBlock => cases noComment

theorem blankFrom_map_blankChar_append (text rest : List Char) :
    blankFrom .nothing (text.map blankChar ++ rest) =
      text.map blankChar ++ blankFrom .nothing rest := by
  induction text with
  | nil => rfl
  | cons c text ih =>
      rw [List.map_cons, List.cons_append, blankFrom, ih]
      · rfl
      all_goals
        unfold blankChar
        split <;> nofun

theorem Divides.blankFrom_blankFrom {text : List Char} {parts : List Part}
    (divides : Divides text parts) :
    blankFrom .nothing (blankFrom .nothing text) = blankFrom .nothing text := by
  induction divides with
  | nil => rfl
  | @cons part rest parts cuts others ih =>
      rw [cuts.blankFrom_append]
      cases comment : part.isComment with
      | true => rw [blanked_of_isComment comment, blankFrom_map_blankChar_append, ih]
      | false =>
          rw [blanked_of_not_isComment comment, (cuts.of_blankFrom comment).blankFrom_append, ih,
            blanked_of_not_isComment comment]

/-! Texts without comments. -/

theorem slash_mem_source {part : Part} (comment : part.isComment = true) : '/' ∈ part.source := by
  cases part with
  | line inside => exact List.mem_cons_self
  | block inside closed => exact List.mem_cons_self
  | _ => cases comment

theorem Divides.noComment {parts : List Part}
    (literal : ∀ part ∈ parts, '/' ∈ part.source → part.isLiteral = true) :
    ∀ part ∈ parts, part.isComment = false := by
  intro part found
  rw [Bool.eq_false_iff]
  intro comment
  have isLiteral := literal part found (slash_mem_source comment)
  cases part with
  | line inside => cases isLiteral
  | block inside closed => cases isLiteral
  | _ => cases comment

end Part

/-- Whether a text goes on to a rest with no slash outside of closed literals. -/
inductive Calm : List Char → List Char → Prop
  | refl (text : List Char) : Calm text text
  | plain {c : Char} {text rest : List Char} (notQuote : c ≠ '"') (notSlash : c ≠ '/')
      (others : Calm text rest) : Calm (c :: text) rest
  | literal {inside text rest : List Char} (between : Between inside) (others : Calm text rest) :
      Calm ('"' :: (inside ++ '"' :: text)) rest

namespace Calm

theorem trans {text middle rest : List Char} (front : Calm text middle) (back : Calm middle rest) :
    Calm text rest := by
  induction front with
  | refl => exact back
  | plain notQuote notSlash others ih => exact .plain notQuote notSlash (ih back)
  | literal between others ih => exact .literal between (ih back)

theorem of_forall_mem {front : List Char} (quiet : ∀ c ∈ front, c ≠ '"' ∧ c ≠ '/')
    (rest : List Char) : Calm (front ++ rest) rest := by
  induction front with
  | nil => exact .refl rest
  | cons c front ih =>
      obtain ⟨here, others⟩ := List.forall_mem_cons.mp quiet
      exact .plain here.1 here.2 (ih others)

theorem exists_divides {text : List Char} (calm : Calm text []) :
    ∃ parts, Part.Divides text parts ∧
      ∀ part ∈ parts, '/' ∈ part.source → part.isLiteral = true := by
  generalize ends : ([] : List Char) = rest at calm
  induction calm with
  | refl =>
      subst ends
      exact ⟨[], .nil, nofun⟩
  | @plain c text rest notQuote notSlash others ih =>
      obtain ⟨parts, divides, literal⟩ := ih ends
      refine ⟨.plain c :: parts, .cons (.plain notQuote fun slash => absurd slash notSlash) divides,
        List.forall_mem_cons.mpr ⟨fun slash => ?_, literal⟩⟩
      exact absurd (List.mem_singleton.mp slash).symm notSlash
  | @literal inside text rest between others ih =>
      obtain ⟨parts, divides, literal⟩ := ih ends
      have whole := Part.Divides.cons (.closed between) divides
      rw [Part.source, if_pos rfl, List.cons_append, List.append_assoc] at whole
      exact ⟨_, whole, List.forall_mem_cons.mpr ⟨fun _ => rfl, literal⟩⟩

end Calm

/-! Documents. -/

section

open Json

theorem calm_of_gap {text rest : List Char} (gap : Gap text rest) : Calm text rest := by
  induction gap with
  | nil text => exact .refl text
  | cons space others ih =>
      refine .plain ?_ ?_ ih <;> (rintro rfl; cases space)

theorem calm_of_digits {text rest : List Char} (digits : Digits text rest) : Calm text rest := by
  induction digits with
  | last digit =>
      refine .plain ?_ ?_ (.refl _) <;> (rintro rfl; cases digit)
  | cons digit others ih =>
      refine .plain ?_ ?_ ih <;> (rintro rfl; cases digit)

theorem calm_of_whole {text rest : List Char} (whole : Whole text rest) : Calm text rest := by
  cases whole with
  | zero => exact .plain (by decide) (by decide) (.refl rest)
  | digits notZero digits => exact calm_of_digits digits

theorem calm_of_fraction {text rest : List Char} (fraction : Fraction text rest) :
    Calm text rest := by
  cases fraction with
  | absent => exact .refl text
  | present digits => exact .plain (by decide) (by decide) (calm_of_digits digits)

theorem calm_of_exponent {text rest : List Char} (exponent : Exponent text rest) :
    Calm text rest := by
  cases exponent with
  | absent => exact .refl text
  | bare isMark digits =>
      have calm := calm_of_digits digits
      rcases isMark with rfl | rfl <;> exact .plain (by decide) (by decide) calm
  | signed isMark isSign digits =>
      have calm := calm_of_digits digits
      rcases isMark with rfl | rfl <;> rcases isSign with rfl | rfl <;>
        exact .plain (by decide) (by decide) (.plain (by decide) (by decide) calm)

theorem calm_of_unsigned {text rest : List Char} (number : Unsigned text rest) :
    Calm text rest := by
  cases number with
  | parts whole fraction exponent =>
      exact (calm_of_whole whole).trans
        ((calm_of_fraction fraction).trans (calm_of_exponent exponent))

theorem ne_of_isHex {c : Char} (hex : IsHex c) : c ≠ '\\' ∧ c ≠ '"' := by
  constructor <;> (rintro rfl; revert hex; unfold IsHex; decide)

theorem exists_between_of_chars {text rest : List Char} (chars : Chars text rest) :
    ∃ inside, Between inside ∧ text = inside ++ '"' :: rest := by
  induction chars with
  | close rest => exact ⟨[], .nil, rfl⟩
  | plain notQuote notBackslash notControl others ih =>
      obtain ⟨inside, between, rfl⟩ := ih
      exact ⟨_, .plain notBackslash notQuote between, rfl⟩
  | short listed others ih =>
      obtain ⟨inside, between, rfl⟩ := ih
      exact ⟨_, .escaped _ between, rfl⟩
  | coded hex others ih =>
      obtain ⟨inside, between, rfl⟩ := ih
      simp only [List.forall_mem_cons] at hex
      obtain ⟨first, second, third, fourth, -⟩ := hex
      have digit : ∀ {c : Char} {inside : List Char}, IsHex c → Between inside →
          Between (c :: inside) :=
        fun hex between => .plain (ne_of_isHex hex).1 (ne_of_isHex hex).2 between
      exact ⟨_, .escaped 'u' (digit first (digit second (digit third (digit fourth between)))), rfl⟩

theorem calm_of_chars {text rest : List Char} (chars : Chars text rest) :
    Calm ('"' :: text) rest := by
  obtain ⟨inside, between, rfl⟩ := exists_between_of_chars chars
  exact .literal between (.refl rest)

theorem calm_of_derives {phrase : Phrase} {text rest : List Char}
    (derives : Derives phrase text rest) : Calm text rest := by
  -- the marks between phrases are neither slashes nor quotes
  have plain : ∀ {c : Char} {text rest : List Char}, c ≠ '"' ∧ c ≠ '/' → Calm text rest →
      Calm (c :: text) rest := fun other calm => .plain other.1 other.2 calm
  induction derives with
  | word listed rest =>
      have quiet : ∀ word ∈ words, ∀ c ∈ word, c ≠ '"' ∧ c ≠ '/' := by simp [words]
      exact .of_forall_mem (quiet _ listed) rest
  | number number => exact calm_of_unsigned number
  | negative number => exact .plain (by decide) (by decide) (calm_of_unsigned number)
  | string chars => exact calm_of_chars chars
  | emptyArray gap =>
      exact plain (by decide) ((calm_of_gap gap).trans (plain (by decide) (.refl _)))
  | array items ih => exact plain (by decide) (ih.trans (plain (by decide) (.refl _)))
  | emptyObject gap =>
      exact plain (by decide) ((calm_of_gap gap).trans (plain (by decide) (.refl _)))
  | object fields ih => exact plain (by decide) (ih.trans (plain (by decide) (.refl _)))
  | item before value after ih =>
      exact (calm_of_gap before).trans (ih.trans (calm_of_gap after))
  | lastItem item ih => exact ih
  | items item more ih ihs => exact ih.trans (plain (by decide) ihs)
  | field before chars between item ih =>
      exact (calm_of_gap before).trans ((calm_of_chars chars).trans
        ((calm_of_gap between).trans (plain (by decide) ih)))
  | lastField field ih => exact ih
  | fields field more ih ihs => exact ih.trans (plain (by decide) ihs)

end

theorem toList_blank (text : String) : (blank text).toList = blankFrom .nothing text.toList :=
  String.toList_ofList

theorem blank_eq_self_of_divides {text : String} {parts : List Part}
    (divides : Part.Divides text.toList parts)
    (literal : ∀ part ∈ parts, '/' ∈ part.source → part.isLiteral = true) :
    blank text = text := by
  rw [← String.toList_inj, toList_blank]
  exact divides.blankFrom_eq_self (Part.Divides.noComment literal)

theorem blank_eq_self_of_isDocument {text : String} (document : Json.IsDocument text.toList) :
    blank text = text := by
  obtain ⟨parts, divides, literal⟩ := (calm_of_derives document).exists_divides
  exact blank_eq_self_of_divides divides literal

theorem getElem?_eq_lineFeed_iff (text : List Char) (index : Nat) :
    text[index]? = some '\n' ↔ (text.map (· == '\n'))[index]? = some true := by
  rw [List.getElem?_map, Option.map_eq_some_iff]
  constructor
  · intro found
    exact ⟨'\n', found, rfl⟩
  · rintro ⟨c, found, same⟩
    rw [found, eq_of_beq same]

/-- The text of a project file is divided in one way, and blanking turns its comments into
spaces and keeps all else: the length, the line feeds where they are, and the whole text where
no slash stands outside of a literal, as in a JSON document. -/
theorem blank_divides (text : String) :
    ∃ parts, (∀ others, Part.Divides text.toList others ↔ others = parts) ∧
      (blank text).toList = parts.flatMap Part.blanked ∧
      (blank text).length = text.length ∧
      (∀ index : Nat,
        (blank text).toList[index]? = some '\n' ↔ text.toList[index]? = some '\n') ∧
      blank (blank text) = blank text ∧
      ((∀ part ∈ parts, '/' ∈ part.source → part.isLiteral = true) → blank text = text) ∧
      (Json.IsDocument text.toList → blank text = text) ∧
      ∀ value, Json.read text = .ok value → blank text = text := by
  obtain ⟨parts, divides⟩ := Part.exists_divides text.toList
  refine ⟨parts, fun others => ⟨fun other => other.unique divides, ?_⟩, ?_, ?_, ?_, ?_,
    blank_eq_self_of_divides divides, blank_eq_self_of_isDocument, ?_⟩
  · rintro rfl
    exact divides
  · rw [toList_blank, divides.blankFrom_eq]
  · rw [← String.length_toList, toList_blank, length_blankFrom, String.length_toList]
  · intro index
    rw [toList_blank, getElem?_eq_lineFeed_iff, lineFeeds_blankFrom, ← getElem?_eq_lineFeed_iff]
  · rw [← String.toList_inj, toList_blank (blank text), toList_blank text]
    exact divides.blankFrom_blankFrom
  · intro value read
    exact blank_eq_self_of_isDocument (Json.isDocument_of_read read)

/-- A document with both kinds of opener in its literals, and a text whose comments hold
quotes and begin next to a slash. -/
theorem blank_divides_openers :
    let document := "\x7b\"a//\\\"b\": [\"/*\", 15]\x7d"
    let commented := "\x7b/*/\n\"*/\"//\": 1 /// \"x\n\x7d"
    (∃ value, Json.read document = .ok value) ∧ blank document = document ∧
      blank commented = "\x7b   \n   \"//\": 1       \n\x7d" ∧
      blank (blank commented) = blank commented := by
  intro document commented
  obtain ⟨-, -, -, -, -, -, -, -, unchanged⟩ := blank_divides document
  obtain ⟨-, -, -, -, -, again, -⟩ := blank_divides commented
  have reads : (Json.read document).toOption.isSome := by decide +kernel
  cases read : Json.read document with
  | error fault =>
      rw [read] at reads
      cases reads
  | ok value => exact ⟨⟨value, rfl⟩, unchanged value read, by decide +kernel, again⟩

end ShadowCheck.Project.Comment
