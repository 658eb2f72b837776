import ShadowCheck.Proofs.Json.Grammar

/-!
What is read as JSON. Each reader takes a phrase of the grammar from the front of its text,
so a text that is read as a value is a document.
-/

namespace ShadowCheck.Json

theorem gap_skipSpace (text : List Char) : Gap text (skipSpace text) := by
  induction text with
  | nil => exact .nil []
  | cons c text ih =>
      unfold skipSpace
      rw [List.dropWhile_cons]
      split
      · rename_i space
        exact .cons space ih
      · exact .nil _

theorem eq_append_of_readWord {value found : Value} {word text rest : List Char}
    (read : readWord value word text = .ok (found, rest)) : text = word ++ rest := by
  fun_induction readWord value word text with
  | case1 => cases read; rfl
  | case2 => cases read
  | case3 c word rest ih => rw [ih read]; rfl
  | case4 => cases read

theorem exists_of_bind {α β : Type} {first : Except Fault α} {next : α → Except Fault β} {found : β}
    (done : (first >>= next) = .ok found) :
    ∃ middle, first = .ok middle ∧ next middle = .ok found := by
  cases first with
  | error fault => cases done
  | ok middle => exact ⟨middle, rfl, done⟩

/-! Numbers. -/

namespace Number

theorem digits_dropWhile {c : Char} (digit : c.isDigit = true) (text : List Char) :
    Digits (c :: text) (text.dropWhile Char.isDigit) := by
  induction text generalizing c with
  | nil => exact .last digit
  | cons d text ih =>
      rw [List.dropWhile_cons]
      split
      · rename_i next
        exact .cons digit (ih next)
      · exact .last digit

theorem rest_takeExponent (exponent : Nat) (text : List Char) :
    (takeExponent exponent text).2 = text.dropWhile Char.isDigit := by
  fun_induction takeExponent exponent text with
  | case1 => rfl
  | case2 exponent c rest digit => rw [List.dropWhile_cons_of_pos digit]
  | case3 exponent c rest digit next fits ih => rw [List.dropWhile_cons_of_pos digit, ih]
  | case4 exponent c rest other => rw [List.dropWhile_cons_of_neg other]

theorem rest_of_ofParts {negative : Bool} {significand : Nat} {exponent : Int}
    {text rest : List Char} {value : Value}
    (read : ofParts negative significand exponent text = .ok (value, rest)) : text = rest := by
  unfold ofParts at read
  split at read
  · cases read; rfl
  · cases read

theorem takeSign_cases (text : List Char) :
    (takeSign text).2 = text ∨
      ∃ sign, (sign = '+' ∨ sign = '-') ∧ text = sign :: (takeSign text).2 := by
  fun_cases takeSign text with
  | case1 => exact .inr ⟨'+', .inl rfl, rfl⟩
  | case2 => exact .inr ⟨'-', .inr rfl, rfl⟩
  | case3 => exact .inl rfl

theorem digits_of_readExponent {negative : Bool} {significand : Nat} {start : Int}
    {text rest : List Char} {value : Value}
    (read : readExponent negative significand start text = .ok (value, rest)) :
    Digits (takeSign text).2 rest := by
  unfold readExponent at read
  dsimp only at read
  split at read
  · cases read
  · rename_i c digits found
    rw [found]
    split at read
    · cases read
    · rename_i digit
      rw [Bool.not_eq_true', Bool.not_eq_false] at digit
      have left := rest_takeExponent (digitValue c) digits
      have same : (takeExponent (digitValue c) digits).2 = rest := by
        split at read
        · rename_i exponent after taken
          rw [taken, rest_of_ofParts read]
        · rename_i unread after taken
          split at read
          · cases read
          · cases read
            rw [taken]
      rw [← same, left]
      exact digits_dropWhile digit digits

theorem exponent_of_readExponent {mark : Char} (isMark : mark = 'e' ∨ mark = 'E')
    {negative : Bool} {significand : Nat} {start : Int} {text rest : List Char} {value : Value}
    (read : readExponent negative significand start text = .ok (value, rest)) :
    Exponent (mark :: text) rest := by
  have digits := digits_of_readExponent read
  rcases takeSign_cases text with bare | ⟨sign, isSign, signed⟩
  · rw [bare] at digits
    exact .bare isMark digits
  · rw [signed]
    exact .signed isMark isSign digits

theorem exponent_of_readScale {negative : Bool} {significand : Nat} {exponent : Int}
    {text rest : List Char} {value : Value}
    (read : readScale negative significand exponent text = .ok (value, rest)) :
    Exponent text rest := by
  unfold readScale at read
  split at read
  · exact exponent_of_readExponent (.inl rfl) read
  · exact exponent_of_readExponent (.inr rfl) read
  · rw [rest_of_ofParts read]
    exact .absent rest

theorem exists_of_readFraction {negative : Bool} {significand exponent : Nat}
    {text rest : List Char} {value : Value}
    (read : readFraction negative significand exponent text = .ok (value, rest)) :
    ∃ after, Digits text after ∧ Exponent after rest := by
  unfold readFraction at read
  dsimp only at read
  split at read
  · cases read
  · rename_i some
    refine ⟨_, ?_, exponent_of_readScale read⟩
    cases text with
    | nil => exact absurd rfl some
    | cons c text =>
        rw [List.takeWhile_cons] at some
        rw [List.dropWhile_cons]
        split at some
        · rename_i digit
          rw [if_pos digit]
          exact digits_dropWhile digit text
        · exact absurd rfl some

theorem exists_of_readTail {negative : Bool} {significand leftOver : Nat} {text rest : List Char}
    {value : Value} (read : readTail negative significand leftOver text = .ok (value, rest)) :
    ∃ after, Fraction text after ∧ Exponent after rest := by
  unfold readTail at read
  split at read
  · obtain ⟨after, digits, exponent⟩ := exists_of_readFraction read
    exact ⟨after, .present digits, exponent⟩
  · exact ⟨_, .absent _, exponent_of_readExponent (.inl rfl) read⟩
  · exact ⟨_, .absent _, exponent_of_readExponent (.inr rfl) read⟩
  · split at read
    · cases read
      exact ⟨_, .absent _, .absent _⟩
    · rw [rest_of_ofParts read]
      exact ⟨_, .absent _, .absent _⟩

theorem unsigned_of_read {negative : Bool} {text rest : List Char} {value : Value}
    (read : Number.read negative text = .ok (value, rest)) : Unsigned text rest := by
  unfold Number.read at read
  split at read
  · cases read
  · split at read
    · cases read
    · obtain ⟨after, fraction, exponent⟩ := exists_of_readTail read
      exact .parts (.zero _) fraction exponent
  · rename_i c text notZero
    split at read
    · cases read
    · rename_i digit
      rw [Bool.not_eq_true', Bool.not_eq_false] at digit
      obtain ⟨after, fraction, exponent⟩ := exists_of_readTail read
      exact .parts (.digits notZero (digits_dropWhile digit text)) fraction exponent

end Number

/-! Strings. -/

namespace Quoted

theorem isHex_of_hexValue? {c : Char} {value : Nat} (found : hexValue? c = some value) :
    IsHex c := by
  unfold hexValue? at found
  split at found
  · rename_i digit
    exact .inl digit
  split at found
  · rename_i lower
    simp only [Bool.and_eq_true, decide_eq_true_eq] at lower
    exact .inr (.inl lower)
  split at found
  · rename_i upper
    simp only [Bool.and_eq_true, decide_eq_true_eq] at upper
    exact .inr (.inr upper)
  · cases found

theorem exists_of_readCode {text rest : List Char} {code : Nat}
    (read : readCode text = .ok (code, rest)) :
    ∃ a b c d, text = a :: b :: c :: d :: rest ∧ ∀ digit ∈ [a, b, c, d], IsHex digit := by
  unfold readCode at read
  split at read
  · cases read
  split at read
  · rename_i a b c d after enough
    split at read
    · rename_i first second third fourth
      cases read
      refine ⟨a, b, c, d, rfl, ?_⟩
      simp only [List.forall_mem_cons]
      exact ⟨isHex_of_hexValue? first, isHex_of_hexValue? second, isHex_of_hexValue? third,
        isHex_of_hexValue? fourth, nofun⟩
    · cases read
  · cases read

theorem chars_of_readCode {text rest after : List Char} {code : Nat}
    (read : readCode text = .ok (code, rest)) (others : Chars rest after) :
    Chars ('\\' :: 'u' :: text) after := by
  obtain ⟨a, b, c, d, rfl, hex⟩ := exists_of_readCode read
  exact .coded hex others

theorem eq_cons_of_expect {c : Char} {text rest : List Char} (read : expect c text = .ok rest) :
    text = c :: rest := by
  unfold expect at read
  split at read
  · cases read
  · split at read
    · rename_i same
      cases read
      rw [same]
    · cases read

theorem chars_of_readCoded {text rest after : List Char} {found : Char}
    (read : readCoded text = .ok (found, rest)) (others : Chars rest after) :
    Chars ('\\' :: 'u' :: text) after := by
  obtain ⟨⟨high, behind⟩, first, read⟩ := exists_of_bind read
  dsimp only at read
  split at read
  · cases read
  split at read
  · cases read
    exact chars_of_readCode first others
  · -- the two codes of a pair are two escapes of the grammar
    obtain ⟨marked, backslash, read⟩ := exists_of_bind read
    obtain ⟨digits, letter, read⟩ := exists_of_bind read
    obtain ⟨⟨low, behindPair⟩, second, read⟩ := exists_of_bind read
    dsimp only at read
    split at read
    · rw [Except.ok.injEq, Prod.mk.injEq] at read
      rw [← read.2] at others
      have pair := chars_of_readCode second others
      rw [← eq_cons_of_expect letter, ← eq_cons_of_expect backslash] at pair
      exact chars_of_readCode first pair
    · cases read

theorem chars_of_readEscape {text rest after : List Char} {found : Char}
    (read : readEscape text = .ok (found, rest)) (others : Chars rest after) :
    Chars ('\\' :: text) after := by
  unfold readEscape at read
  split at read
  case h_1 => cases read
  case h_10 => exact chars_of_readCoded read others
  case h_11 => cases read
  all_goals
    cases read
    exact .short (by decide) others

theorem chars_of_readChars {count : Nat} {text rest found : List Char}
    (read : readChars count text = .ok (found, rest)) : Chars text rest := by
  induction count generalizing text rest found with
  | zero => cases read
  | succ count ih =>
      cases text with
      | nil => cases read
      | cons c text =>
          unfold readChars at read
          split at read
          · rename_i quote
            cases read
            rw [quote]
            exact .close rest
          rename_i notQuote
          split at read
          · rename_i backslash
            obtain ⟨⟨escaped, behind⟩, escape, read⟩ := exists_of_bind read
            obtain ⟨⟨others, after⟩, more, read⟩ := exists_of_bind read
            cases read
            rw [backslash]
            exact chars_of_readEscape escape (ih more)
          rename_i notBackslash
          split at read
          · cases read
          · rename_i notControl
            obtain ⟨⟨others, after⟩, more, read⟩ := exists_of_bind read
            cases read
            exact .plain notQuote notBackslash (Nat.not_lt.mp notControl) (ih more)

theorem chars_of_read {text rest : List Char} {found : String}
    (read : Quoted.read text = .ok (found, rest)) : Chars text rest := by
  obtain ⟨⟨chars, behind⟩, more, read⟩ := exists_of_bind read
  cases read
  exact chars_of_readChars more

end Quoted

/-! Values. -/

theorem derives_of_readWord {value found : Value} {word text rest : List Char} {first : Char}
    (listed : first :: word ∈ words) (read : readWord value word text = .ok (found, rest)) :
    Derives .value (first :: text) rest := by
  rw [eq_append_of_readWord read, ← List.cons_append]
  exact .word listed rest

/-- What is read with some bound on the steps that are left. -/
structure Sound (fuel : Nat) : Prop where
  value : ∀ {depth text value rest}, readValue fuel depth text = .ok (value, rest) →
    ∃ begun, Gap text begun ∧ Derives .value begun rest
  firstItem : ∀ {depth text items rest}, readItems fuel depth true text = .ok (items, rest) →
    Derives .value ('[' :: text) rest
  items : ∀ {depth text items rest}, readItems fuel depth false text = .ok (items, rest) →
    Gap text (']' :: rest) ∨
      ∃ others, Gap text (',' :: others) ∧ Derives .items others (']' :: rest)
  item : ∀ {depth text items rest}, readItem fuel depth text = .ok (items, rest) →
    Derives .items text (']' :: rest)
  firstField : ∀ {depth fields text found rest},
    readFields fuel depth fields true text = .ok (found, rest) → Derives .value ('{' :: text) rest
  fields : ∀ {depth fields text found rest},
    readFields fuel depth fields false text = .ok (found, rest) →
      Gap text ('}' :: rest) ∨
        ∃ others, Gap text (',' :: others) ∧ Derives .fields others ('}' :: rest)
  field : ∀ {depth fields text found rest},
    readField fuel depth fields text = .ok (found, rest) → Derives .fields text ('}' :: rest)

theorem sound_zero : Sound 0 := by
  constructor <;> intros <;> rename_i read <;>
    simp [readValue, readItems, readItem, readFields, readField] at read

namespace Sound

variable {fuel : Nat} (sound : Sound fuel)

include sound

theorem readValue_succ {depth : Nat} {text rest : List Char} {value : Value}
    (read : readValue (fuel + 1) depth text = .ok (value, rest)) :
    ∃ begun, Gap text begun ∧ Derives .value begun rest := by
  refine ⟨skipSpace text, gap_skipSpace text, ?_⟩
  unfold readValue at read
  split at read
  · cases read
  · rename_i found
    rw [found]
    exact derives_of_readWord (by decide) read
  · rename_i found
    rw [found]
    exact derives_of_readWord (by decide) read
  · rename_i found
    rw [found]
    exact derives_of_readWord (by decide) read
  · rename_i found
    rw [found]
    exact .negative (Number.unsigned_of_read read)
  · rename_i found
    rw [found]
    obtain ⟨⟨string, behind⟩, chars, read⟩ := exists_of_bind read
    cases read
    exact .string (Quoted.chars_of_read chars)
  · rename_i found
    rw [found]
    split at read
    · cases read
    · obtain ⟨⟨items, behind⟩, more, read⟩ := exists_of_bind read
      cases read
      exact sound.firstItem more
  · rename_i found
    rw [found]
    split at read
    · cases read
    · obtain ⟨⟨fields, behind⟩, more, read⟩ := exists_of_bind read
      cases read
      exact sound.firstField more
  · rename_i found
    rw [found]
    split at read
    · exact .number (Number.unsigned_of_read read)
    · cases read

theorem readItem_succ {depth : Nat} {text rest : List Char} {items : List Value}
    (read : readItem (fuel + 1) depth text = .ok (items, rest)) :
    Derives .items text (']' :: rest) := by
  unfold readItem at read
  obtain ⟨⟨item, behind⟩, first, read⟩ := exists_of_bind read
  obtain ⟨⟨others, after⟩, more, read⟩ := exists_of_bind read
  cases read
  obtain ⟨begun, gap, value⟩ := sound.value first
  rcases sound.items more with ends | ⟨others, comma, items⟩
  · exact .lastItem (.item gap value ends)
  · exact .items (.item gap value comma) items

theorem readItems_succ_true {depth : Nat} {text rest : List Char} {items : List Value}
    (read : readItems (fuel + 1) depth true text = .ok (items, rest)) :
    Derives .value ('[' :: text) rest := by
  have gap := gap_skipSpace text
  unfold readItems at read
  split at read
  · cases read
  · rename_i found
    cases read
    rw [found] at gap
    exact .emptyArray gap
  · rename_i found
    rw [if_pos rfl] at read
    rw [found] at gap
    exact .array ((sound.item read).gap (by simp) gap)

theorem readItems_succ_false {depth : Nat} {text rest : List Char} {items : List Value}
    (read : readItems (fuel + 1) depth false text = .ok (items, rest)) :
    Gap text (']' :: rest) ∨
      ∃ others, Gap text (',' :: others) ∧ Derives .items others (']' :: rest) := by
  have gap := gap_skipSpace text
  unfold readItems at read
  split at read
  · cases read
  · rename_i found
    cases read
    rw [found] at gap
    exact .inl gap
  · rename_i c others notEnd found
    rw [if_neg Bool.false_ne_true] at read
    split at read
    · rename_i comma
      rw [found, comma] at gap
      split at read
      · cases read
      · cases read
      · exact .inr ⟨others, gap, (sound.item read).gap (by simp) (gap_skipSpace others)⟩
    · cases read

theorem readField_succ {depth : Nat} {fields found : List (String × Value)} {text rest : List Char}
    (read : readField (fuel + 1) depth fields text = .ok (found, rest)) :
    Derives .fields text ('}' :: rest) := by
  unfold readField at read
  split at read
  · rename_i text
    obtain ⟨⟨name, behind⟩, chars, read⟩ := exists_of_bind read
    have named := Quoted.chars_of_read chars
    have between := gap_skipSpace behind
    dsimp only at read
    split at read
    · cases read
    · rename_i colon
      rw [colon] at between
      obtain ⟨⟨value, after⟩, first, read⟩ := exists_of_bind read
      obtain ⟨begun, gap, value⟩ := sound.value first
      rcases sound.fields read with ends | ⟨others, comma, more⟩
      · exact .lastField (.field (.nil _) named between (.item gap value ends))
      · exact .fields (.field (.nil _) named between (.item gap value comma)) more
    · cases read
  · cases read

theorem readFields_succ_true {depth : Nat} {fields found : List (String × Value)}
    {text rest : List Char}
    (read : readFields (fuel + 1) depth fields true text = .ok (found, rest)) :
    Derives .value ('{' :: text) rest := by
  have gap := gap_skipSpace text
  unfold readFields at read
  split at read
  · cases read
  · rename_i ends
    cases read
    rw [ends] at gap
    exact .emptyObject gap
  · rename_i begun
    rw [if_pos rfl] at read
    rw [begun] at gap
    exact .object ((sound.field read).gap (by simp) gap)

theorem readFields_succ_false {depth : Nat} {fields found : List (String × Value)}
    {text rest : List Char}
    (read : readFields (fuel + 1) depth fields false text = .ok (found, rest)) :
    Gap text ('}' :: rest) ∨
      ∃ others, Gap text (',' :: others) ∧ Derives .fields others ('}' :: rest) := by
  have gap := gap_skipSpace text
  unfold readFields at read
  split at read
  · cases read
  · rename_i ends
    cases read
    rw [ends] at gap
    exact .inl gap
  · rename_i c others notEnd begun
    rw [if_neg Bool.false_ne_true] at read
    split at read
    · rename_i comma
      rw [begun, comma] at gap
      split at read
      · cases read
      · cases read
      · exact .inr ⟨others, gap, (sound.field read).gap (by simp) (gap_skipSpace others)⟩
    · cases read

theorem succ : Sound (fuel + 1) where
  value := sound.readValue_succ
  firstItem := sound.readItems_succ_true
  items := sound.readItems_succ_false
  item := sound.readItem_succ
  firstField := sound.readFields_succ_true
  fields := sound.readFields_succ_false
  field := sound.readField_succ

end Sound

theorem sound (fuel : Nat) : Sound fuel := by
  induction fuel with
  | zero => exact sound_zero
  | succ fuel ih => exact ih.succ

/-- Only documents of the grammar are read. -/
theorem isDocument_of_read {text : String} {value : Value} (read : Json.read text = .ok value) :
    IsDocument text.toList := by
  unfold Json.read at read
  dsimp only at read
  split at read
  · cases read
  · rename_i found rest first
    split at read
    · rename_i ends
      obtain ⟨begun, gap, derives⟩ := (sound _).value first
      have after := gap_skipSpace rest
      rw [ends] at after
      exact .item gap derives after
    · cases read

end ShadowCheck.Json
