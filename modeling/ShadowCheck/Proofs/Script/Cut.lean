import ShadowCheck.Script.Piece

/-!
How a text is cut into pieces: what a piece begins with, where it stops, and
when it is cut off in the same way in front of other text.
-/

namespace ShadowCheck.Script

open ShadowCheck.Text

namespace Piece

theorem split_cons (c : Char) (rest : List Char) :
    split (c :: rest) = (next c rest).1 :: split (next c rest).2 := by
  rw [split]

theorem source_ne_nil_of_mem_split {text : List Char} {piece : Piece}
    (found : piece ∈ split text) : piece.source ≠ [] := by
  fun_induction split text with
  | case1 => cases found
  | case2 c rest ih =>
      rcases List.mem_cons.mp found with rfl | later
      · exact source_next_ne_nil c rest
      · exact ih later

/-! Runs of characters. -/

theorem takeWhile_of_stops {p : Char → Bool} {front rest : List Char}
    (all : ∀ c ∈ front, p c = true) (stops : ∀ c ∈ rest.head?, p c = false) :
    (front ++ rest).takeWhile p = front ∧ (front ++ rest).dropWhile p = rest := by
  rw [List.takeWhile_append_of_pos all, List.dropWhile_append_of_pos all]
  cases rest with
  | nil => simp
  | cons c rest => simp [stops c rfl]

theorem stops_dropWhile (p : Char → Bool) (text : List Char) :
    ∀ c ∈ (text.dropWhile p).head?, p c = false := by
  intro c first
  have stop := List.head?_dropWhile_not p text
  rw [Option.mem_def.mp first] at stop
  exact stop

/-! Words. -/

/-- A word begins with a character that no other kind of piece begins with. -/
structure StartsWord (c : Char) : Prop where
  notBlank : isBlank c = false
  notMark : Mark.ofChar? c = none
  notQuote : isQuote c = false
  notDigit : c.isDigit = false
  wordStart : isWordStart c = true

theorem StartsWord.ne_slash {c : Char} (starts : StartsWord c) : c ≠ '/' := by
  rintro rfl
  have wordStart := starts.wordStart
  revert wordStart
  decide

theorem StartsWord.isWordPart {c : Char} (starts : StartsWord c) : isWordPart c = true := by
  simp [Script.isWordPart, starts.wordStart]

theorem next_of_startsWord {c : Char} (starts : StartsWord c) (rest : List Char) :
    next c rest =
      (word (c :: rest.takeWhile Script.isWordPart), rest.dropWhile Script.isWordPart) := by
  simp [next, starts.notBlank, starts.ne_slash, starts.notMark, starts.notQuote,
    starts.notDigit, starts.wordStart]

theorem startsWord_of_next {c : Char} {rest text after : List Char}
    (found : next c rest = (word text, after)) : StartsWord c := by
  unfold next at found
  split at found
  · cases found
  rename_i notBlank
  split at found
  · cases found
  split at found
  · cases found
  rename_i notMark
  split at found
  · cases found
  rename_i notQuote
  split at found
  · cases found
  rename_i notDigit
  split at found
  · rename_i wordStart
    exact ⟨by simpa using notBlank, notMark, by simpa using notQuote,
      by simpa using notDigit, wordStart⟩
  · cases found

theorem next_word {c : Char} (starts : StartsWord c) {front rest : List Char}
    (parts : ∀ d ∈ front, Script.isWordPart d = true)
    (stops : ∀ d ∈ rest.head?, Script.isWordPart d = false) :
    next c (front ++ rest) = (word (c :: front), rest) := by
  obtain ⟨taken, left⟩ := takeWhile_of_stops parts stops
  rw [next_of_startsWord starts, taken, left]

theorem stops_of_next {c : Char} {rest letters after : List Char}
    (cut : next c rest = (word letters, after)) :
    ∀ d ∈ after.head?, Script.isWordPart d = false := by
  rw [next_of_startsWord (startsWord_of_next cut)] at cut
  obtain ⟨-, rfl⟩ := Prod.mk.inj cut
  exact stops_dropWhile Script.isWordPart rest

/-! Numbers. -/

theorem toNat_of_isDigit {c : Char} (digit : c.isDigit) : 48 ≤ c.toNat ∧ c.toNat ≤ 57 := by
  simp only [Char.isDigit, Bool.and_eq_true, decide_eq_true_eq] at digit
  exact ⟨UInt32.le_iff_toNat_le.mp digit.1, UInt32.le_iff_toNat_le.mp digit.2⟩

theorem isBlank_eq_false_of_isDigit {c : Char} (digit : c.isDigit) : isBlank c = false := by
  have bounds := toNat_of_isDigit digit
  simp only [isBlank, Ranges.covers, blankRanges, List.any_eq_false, Bool.and_eq_true,
    decide_eq_true_eq, not_and, Nat.not_le]
  intro range found
  simp only [List.mem_cons, List.not_mem_nil, or_false] at found
  rcases found with rfl | rfl | rfl | rfl | rfl | rfl | rfl | rfl | rfl | rfl <;> omega

theorem ne_of_isDigit {c d : Char} (digit : c.isDigit) (other : d.isDigit = false) : c ≠ d := by
  rintro rfl
  rw [digit] at other
  cases other

theorem next_of_isDigit {c : Char} (digit : c.isDigit) (rest : List Char) :
    next c rest = (number (c :: (takeNumber false rest).1), (takeNumber false rest).2) := by
  have colon : c ≠ ':' := ne_of_isDigit digit rfl
  have equals : c ≠ '=' := ne_of_isDigit digit rfl
  have semicolon : c ≠ ';' := ne_of_isDigit digit rfl
  have slash : c ≠ '/' := ne_of_isDigit digit rfl
  have double : c ≠ '"' := ne_of_isDigit digit rfl
  have single : c ≠ '\'' := ne_of_isDigit digit rfl
  simp [next, Mark.ofChar?, isQuote, isBlank_eq_false_of_isDigit digit, colon, equals, semicolon,
    slash, double, single, digit]

theorem isDigit_of_next {c : Char} {rest text after : List Char}
    (found : next c rest = (number text, after)) : c.isDigit := by
  unfold next at found
  repeat' split at found
  all_goals first | assumption | cases found

/-- What cannot lengthen a number, or a word, that it follows. -/
def Closes (rest : List Char) : Prop :=
  ∀ d ∈ rest.head?, isWordPart d = false ∧ d ≠ '.'

theorem isWordPart_of_isDigit {c : Char} (digit : c.isDigit) : isWordPart c = true := by
  have bounds := toNat_of_isDigit digit
  have ascii : isAscii c = true := by
    simp only [isAscii, decide_eq_true_eq]
    omega
  simp [isWordPart, isNumeral, ascii, digit]

theorem takeNumber_of_closes {rest : List Char} (closes : Closes rest) (dotted : Bool) :
    takeNumber dotted rest = ([], rest) := by
  cases rest with
  | nil => rfl
  | cons d rest =>
      obtain ⟨stop, notDot⟩ := closes d rfl
      have notDigit : d.isDigit = false := by
        apply Bool.eq_false_iff.mpr
        intro digit
        rw [isWordPart_of_isDigit digit] at stop
        cases stop
      have notUnderscore : d ≠ '_' := by
        rintro rfl
        revert stop
        decide
      simp [takeNumber, notDigit, notUnderscore, notDot]

theorem takeNumber_of_cons {dotted : Bool} {c : Char} {text front : List Char}
    (whole : (c :: (takeNumber dotted text).1, (takeNumber dotted text).2) = (c :: front, [])) :
    takeNumber dotted text = (front, []) := by
  simp only [Prod.mk.injEq, List.cons.injEq, true_and] at whole
  exact Prod.ext whole.1 whole.2

theorem takeNumber_append_of_closes {dotted : Bool} {front rest : List Char}
    (whole : takeNumber dotted front = (front, [])) (closes : Closes rest) :
    takeNumber dotted (front ++ rest) = (front, rest) := by
  induction front generalizing dotted with
  | nil => exact takeNumber_of_closes closes dotted
  | cons c front ih =>
      rw [takeNumber] at whole
      rw [List.cons_append, takeNumber]
      split at whole
      · rename_i plain
        rw [if_pos plain, ih (takeNumber_of_cons whole)]
      · rename_i notPlain
        split at whole
        · rename_i dot
          have tail := takeNumber_of_cons whole
          cases front with
          | nil => simp at dot
          | cons d front =>
              have again : (c = '.' && !dotted &&
                  (d :: front ++ rest).head?.any Char.isDigit) = true := by
                simpa using dot
              rw [if_neg notPlain, if_pos again, ih tail]
        · cases whole

theorem next_number {c : Char} (digit : c.isDigit) {front rest : List Char}
    (whole : takeNumber false front = (front, [])) (closes : Closes rest) :
    next c (front ++ rest) = (number (c :: front), rest) := by
  rw [next_of_isDigit digit, takeNumber_append_of_closes whole closes]

/-- A dot is taken for the sake of the digit after it, which is then taken too. -/
theorem head?_takeNumber {dotted : Bool} {text : List Char}
    (digit : text.head?.any Char.isDigit) :
    (takeNumber dotted text).1.head?.any Char.isDigit := by
  cases text with
  | nil => cases digit
  | cons c rest =>
      have here : c.isDigit = true := digit
      simp [takeNumber, here]

theorem takeNumber_takeNumber (dotted : Bool) (text : List Char) :
    takeNumber dotted (takeNumber dotted text).1 = ((takeNumber dotted text).1, []) := by
  fun_induction takeNumber dotted text with
  | case1 => rfl
  | case2 dotted c rest plain tail ih =>
      rw [takeNumber, if_pos plain, ih]
  | case3 dotted c rest notPlain dot tail ih =>
      simp only [Bool.and_eq_true] at dot
      have again : (c = '.' && !dotted && tail.1.head?.any Char.isDigit) = true := by
        simp only [Bool.and_eq_true]
        exact ⟨dot.1, head?_takeNumber dot.2⟩
      rw [takeNumber, if_neg notPlain, if_pos again, ih]
  | case4 => rfl

theorem lineFeed_not_mem_takeNumber (dotted : Bool) (text : List Char) :
    '\n' ∉ (takeNumber dotted text).1 := by
  fun_induction takeNumber dotted text with
  | case1 => exact List.not_mem_nil
  | case2 dotted c rest plain tail ih =>
      rintro (_ | ⟨_, found⟩)
      · cases plain
      · exact ih found
  | case3 dotted c rest notPlain dot tail ih =>
      rintro (_ | ⟨_, found⟩)
      · cases dot
      · exact ih found
  | case4 => exact List.not_mem_nil

theorem next_mark (kind : Mark) (rest : List Char) :
    next kind.char rest = (mark kind, rest) := by
  cases kind <;> rfl

theorem next_of_isQuote {quote : Char} (isQuote : isQuote quote) (rest : List Char) :
    next quote rest =
      (quoted quote (takeQuoted quote rest).1 (takeQuoted quote rest).2.1,
        (takeQuoted quote rest).2.2) := by
  simp only [Script.isQuote, Bool.or_eq_true, decide_eq_true_eq] at isQuote
  rcases isQuote with rfl | rfl <;> rfl

theorem isQuote_of_next {c quote : Char} {rest body after : List Char} {closed : Bool}
    (found : next c rest = (quoted quote body closed, after)) :
    isQuote quote ∧ c = quote ∧ takeQuoted quote rest = (body, closed, after) := by
  unfold next at found
  split at found
  · cases found
  split at found
  · cases found
  split at found
  · cases found
  split at found
  · rename_i isQuote
    simp only [Prod.mk.injEq, quoted.injEq] at found
    obtain ⟨⟨rfl, rfl, rfl⟩, rfl⟩ := found
    exact ⟨isQuote, rfl, rfl⟩
  split at found
  · cases found
  split at found <;> cases found

theorem next_of_isBlank {c : Char} (isBlank : isBlank c) (rest : List Char) :
    next c rest = (blank c, rest) := by
  simp [next, isBlank]

end Piece

end ShadowCheck.Script
