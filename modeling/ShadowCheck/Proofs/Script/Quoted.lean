import ShadowCheck.Proofs.Script.Cut
import ShadowCheck.Script.Print
import ShadowCheck.Script.Token

/-!
Strings: an escaped value reads back as the value, and escaping what was read
never makes it longer, save where a carriage return or a null stood unescaped.
-/

namespace ShadowCheck.Script

open Lexeme Piece

theorem ne_backslash_of_isQuote {quote : Char} (isQuote : isQuote quote) : quote ≠ '\\' := by
  rintro rfl
  revert isQuote
  decide

theorem ne_lineFeed_of_isQuote {quote : Char} (isQuote : isQuote quote) : quote ≠ '\n' := by
  rintro rfl
  revert isQuote
  decide

/-- A character is written bare, or as a backslash and a character that stands for it. -/
theorem escapeChar_cases {quote : Char} (isQuote : isQuote quote) (c : Char) :
    (escapeChar quote c = [c] ∧ c ≠ '\\' ∧ c ≠ '\n' ∧ c ≠ quote) ∨
      ∃ d, escapeChar quote c = ['\\', d] ∧ unescapeChar d = c ∧ d ≠ '\n' := by
  unfold escapeChar
  split
  · rename_i same
    exact .inr ⟨'\\', rfl, by simp [unescapeChar, same], by decide⟩
  split
  · rename_i same
    exact .inr ⟨'n', rfl, by simp [unescapeChar, same], by decide⟩
  split
  · rename_i same
    exact .inr ⟨'r', rfl, by simp [unescapeChar, same], by decide⟩
  split
  · rename_i same
    exact .inr ⟨'0', rfl, by simp [unescapeChar, same], by decide⟩
  split
  · rename_i same
    subst same
    refine .inr ⟨c, rfl, ?_, ne_lineFeed_of_isQuote isQuote⟩
    simp only [Script.isQuote, Bool.or_eq_true, decide_eq_true_eq] at isQuote
    rcases isQuote with rfl | rfl <;> rfl
  · rename_i notBackslash notLineFeed _ _ notQuote
    exact .inl ⟨rfl, notBackslash, notLineFeed, notQuote⟩

theorem escape_cons (quote c : Char) (value : List Char) :
    escape quote (c :: value) = escapeChar quote c ++ escape quote value := rfl

theorem unescape_cons {c : Char} (notBackslash : c ≠ '\\') (rest : List Char) :
    unescape (c :: rest) = c :: unescape rest := by
  rw [unescape]
  · exact fun same _ => notBackslash same
  · exact fun _ _ same _ => notBackslash same

theorem unescape_escape {quote : Char} (isQuote : isQuote quote) (value : List Char) :
    unescape (escape quote value) = value := by
  induction value with
  | nil => rfl
  | cons c rest ih =>
      rw [escape_cons]
      rcases escapeChar_cases isQuote c with ⟨bare, notBackslash, _, _⟩ | ⟨d, escaped, meant, _⟩
      · rw [bare, List.singleton_append, unescape_cons notBackslash, ih]
      · rw [escaped]
        change unescapeChar d :: unescape (escape quote rest) = c :: rest
        rw [meant, ih]

theorem takeQuoted_cons {quote c : Char} (notBackslash : c ≠ '\\') (notLineFeed : c ≠ '\n')
    (notQuote : c ≠ quote) (rest : List Char) :
    takeQuoted quote (c :: rest) =
      (c :: (takeQuoted quote rest).1, (takeQuoted quote rest).2) := by
  rw [takeQuoted]
  · rw [if_neg notLineFeed, if_neg notQuote]
  · exact fun same _ => notBackslash same
  · exact fun _ _ same _ => notBackslash same

theorem takeQuoted_quote {quote : Char} (isQuote : isQuote quote) (rest : List Char) :
    takeQuoted quote (quote :: rest) = ([], true, rest) := by
  rw [takeQuoted]
  · rw [if_neg (ne_lineFeed_of_isQuote isQuote), if_pos rfl]
  · exact fun same _ => ne_backslash_of_isQuote isQuote same
  · exact fun _ _ same _ => ne_backslash_of_isQuote isQuote same

theorem takeQuoted_escape {quote : Char} (isQuote : isQuote quote) (value rest : List Char) :
    takeQuoted quote (escape quote value ++ quote :: rest) =
      (escape quote value, true, rest) := by
  induction value with
  | nil => exact takeQuoted_quote isQuote rest
  | cons c value ih =>
      rw [escape_cons]
      rcases escapeChar_cases isQuote c with
        ⟨bare, notBackslash, notLineFeed, notQuote⟩ | ⟨d, escaped, _, _⟩
      · rw [bare, List.singleton_append, List.cons_append,
          takeQuoted_cons notBackslash notLineFeed notQuote, ih]
      · rw [escaped]
        change ('\\' :: d :: (takeQuoted quote (escape quote value ++ quote :: rest)).1,
          (takeQuoted quote (escape quote value ++ quote :: rest)).2) = _
        rw [ih]
        rfl

theorem lineFeed_not_mem_escape {quote : Char} (isQuote : isQuote quote) (value : List Char) :
    '\n' ∉ escape quote value := by
  induction value with
  | nil => exact List.not_mem_nil
  | cons c value ih =>
      rw [escape_cons]
      rcases escapeChar_cases isQuote c with ⟨bare, _, notLineFeed, _⟩ | ⟨d, escaped, _, notLineFeed⟩
      · simp [bare, notLineFeed.symm, ih]
      · simp [escaped, notLineFeed.symm, ih]

/-- The characters of a string that stand there without a backslash before them. -/
def unescaped : List Char → List Char
  | [] => []
  | '\\' :: _ :: rest => unescaped rest
  | c :: rest => c :: unescaped rest

theorem unescaped_cons {c : Char} (notBackslash : c ≠ '\\') (rest : List Char) :
    unescaped (c :: rest) = c :: unescaped rest := by
  rw [unescaped]
  exact fun _ _ same _ => notBackslash same

theorem ne_backslash_of_bare {c : Char} {rest : List Char}
    (notLast : c = '\\' → rest = [] → False)
    (notEscape : ∀ d others, c = '\\' → rest = d :: others → False) : c ≠ '\\' := by
  intro same
  cases rest with
  | nil => exact notLast same rfl
  | cons d others => exact notEscape d others same rfl

theorem not_mem_unescaped_takeQuoted {quote : Char} (isQuote : isQuote quote)
    (text : List Char) :
    '\n' ∉ unescaped (takeQuoted quote text).1 ∧
      quote ∉ unescaped (takeQuoted quote text).1 := by
  fun_induction takeQuoted quote text with
  | case1 => simp [unescaped]
  | case2 => simp [unescaped, ne_backslash_of_isQuote isQuote]
  | case3 c rest tail ih => exact ih
  | case4 => simp [unescaped]
  | case5 => simp [unescaped]
  | case6 c rest notLast notEscape notLineFeed notQuote tail ih =>
      have notBackslash := ne_backslash_of_bare notLast notEscape
      simp only [unescaped_cons notBackslash, List.mem_cons, not_or]
      exact ⟨⟨Ne.symm notLineFeed, ih.1⟩, ⟨Ne.symm notQuote, ih.2⟩⟩

/-- An open string stops at a line feed or at the end of the text. -/
theorem head?_of_takeQuoted_open {quote : Char} {text : List Char}
    (opened : (takeQuoted quote text).2.1 = false) :
    ∀ c ∈ (takeQuoted quote text).2.2.head?, c = '\n' := by
  fun_induction takeQuoted quote text with
  | case1 => simp
  | case2 => simp
  | case3 c rest tail ih => exact ih opened
  | case4 => simp
  | case5 => cases opened
  | case6 c rest _ _ _ _ tail ih => exact ih opened

theorem length_escapeChar_le (quote c : Char) : (escapeChar quote c).length ≤ 2 := by
  unfold escapeChar
  repeat' split
  all_goals simp

theorem length_escape_unescape_le {quote : Char} {body : List Char}
    (lineFeed : '\n' ∉ unescaped body) (closing : quote ∉ unescaped body)
    (carriageReturn : '\r' ∉ unescaped body) (null : '\x00' ∉ unescaped body) :
    (escape quote (unescape body)).length ≤ body.length := by
  fun_induction unescape body with
  | case1 => exact Nat.le_refl 0
  | case2 => simp [escape]
  | case3 c rest ih =>
      have step := length_escapeChar_le quote (unescapeChar c)
      have below := ih lineFeed closing carriageReturn null
      simp only [escape_cons, List.length_append, List.length_cons]
      omega
  | case4 c rest notLast notEscape ih =>
      have notBackslash := ne_backslash_of_bare notLast notEscape
      simp only [unescaped_cons notBackslash, List.mem_cons, not_or] at *
      have below := ih lineFeed.2 closing.2 carriageReturn.2 null.2
      have bare : escapeChar quote c = [c] := by
        simp [escapeChar, notBackslash, Ne.symm lineFeed.1, Ne.symm closing.1,
          Ne.symm carriageReturn.1, Ne.symm null.1]
      simp only [escape_cons, bare, List.length_append, List.length_cons, List.length_nil]
      omega

end ShadowCheck.Script
