import ShadowCheck.Json.Reader

/-!
The grammar of JSON texts. A phrase is given as the text that begins with it and the rest
behind it.
-/

namespace ShadowCheck.Json

inductive Gap : List Char → List Char → Prop
  | nil (text : List Char) : Gap text text
  | cons {c : Char} {text rest : List Char} (space : isSpace c = true) (others : Gap text rest) :
      Gap (c :: text) rest

inductive Digits : List Char → List Char → Prop
  | last {c : Char} {rest : List Char} (digit : c.isDigit = true) : Digits (c :: rest) rest
  | cons {c : Char} {text rest : List Char} (digit : c.isDigit = true) (others : Digits text rest) :
      Digits (c :: text) rest

/-- The whole part of a number; a leading zero stands alone. -/
inductive Whole : List Char → List Char → Prop
  | zero (rest : List Char) : Whole ('0' :: rest) rest
  | digits {c : Char} {text rest : List Char} (notZero : c ≠ '0')
      (digits : Digits (c :: text) rest) : Whole (c :: text) rest

inductive Fraction : List Char → List Char → Prop
  | absent (text : List Char) : Fraction text text
  | present {text rest : List Char} (digits : Digits text rest) : Fraction ('.' :: text) rest

inductive Exponent : List Char → List Char → Prop
  | absent (text : List Char) : Exponent text text
  | bare {mark : Char} {text rest : List Char} (isMark : mark = 'e' ∨ mark = 'E')
      (digits : Digits text rest) : Exponent (mark :: text) rest
  | signed {mark sign : Char} {text rest : List Char} (isMark : mark = 'e' ∨ mark = 'E')
      (isSign : sign = '+' ∨ sign = '-') (digits : Digits text rest) :
      Exponent (mark :: sign :: text) rest

/-- A number without its sign. -/
inductive Unsigned : List Char → List Char → Prop
  | parts {text afterWhole afterFraction rest : List Char} (whole : Whole text afterWhole)
      (fraction : Fraction afterWhole afterFraction) (exponent : Exponent afterFraction rest) :
      Unsigned text rest

def IsHex (c : Char) : Prop :=
  c.isDigit = true ∨ ('a' ≤ c ∧ c ≤ 'f') ∨ ('A' ≤ c ∧ c ≤ 'F')

/-- What stands between the quotes of a string, and the closing quote. -/
inductive Chars : List Char → List Char → Prop
  | close (rest : List Char) : Chars ('"' :: rest) rest
  | plain {c : Char} {text rest : List Char} (notQuote : c ≠ '"') (notBackslash : c ≠ '\\')
      (notControl : 0x20 ≤ c.toNat) (others : Chars text rest) : Chars (c :: text) rest
  | short {c : Char} {text rest : List Char}
      (listed : c ∈ ['"', '\\', '/', 'b', 'f', 'n', 'r', 't']) (others : Chars text rest) :
      Chars ('\\' :: c :: text) rest
  | coded {a b c d : Char} {text rest : List Char} (hex : ∀ digit ∈ [a, b, c, d], IsHex digit)
      (others : Chars text rest) : Chars ('\\' :: 'u' :: a :: b :: c :: d :: text) rest

def words : List (List Char) :=
  [['n', 'u', 'l', 'l'], ['t', 'r', 'u', 'e'], ['f', 'a', 'l', 's', 'e']]

inductive Phrase
  | value
  /-- A value in blanks. -/
  | item
  | items
  | field
  | fields

/-- Whether a text begins with a phrase and goes on with a rest. -/
inductive Derives : Phrase → List Char → List Char → Prop
  | word {word : List Char} (listed : word ∈ words) (rest : List Char) :
      Derives .value (word ++ rest) rest
  | number {text rest : List Char} (number : Unsigned text rest) : Derives .value text rest
  | negative {text rest : List Char} (number : Unsigned text rest) :
      Derives .value ('-' :: text) rest
  | string {text rest : List Char} (chars : Chars text rest) : Derives .value ('"' :: text) rest
  | emptyArray {text rest : List Char} (gap : Gap text (']' :: rest)) :
      Derives .value ('[' :: text) rest
  | array {text rest : List Char} (items : Derives .items text (']' :: rest)) :
      Derives .value ('[' :: text) rest
  | emptyObject {text rest : List Char} (gap : Gap text ('}' :: rest)) :
      Derives .value ('{' :: text) rest
  | object {text rest : List Char} (fields : Derives .fields text ('}' :: rest)) :
      Derives .value ('{' :: text) rest
  | item {text front back rest : List Char} (before : Gap text front)
      (value : Derives .value front back) (after : Gap back rest) : Derives .item text rest
  | lastItem {text rest : List Char} (item : Derives .item text rest) : Derives .items text rest
  | items {text others rest : List Char} (item : Derives .item text (',' :: others))
      (more : Derives .items others rest) : Derives .items text rest
  | field {text name colon value rest : List Char} (before : Gap text ('"' :: name))
      (chars : Chars name colon) (between : Gap colon (':' :: value))
      (item : Derives .item value rest) : Derives .field text rest
  | lastField {text rest : List Char} (field : Derives .field text rest) : Derives .fields text rest
  | fields {text others rest : List Char} (field : Derives .field text (',' :: others))
      (more : Derives .fields others rest) : Derives .fields text rest

def IsDocument (text : List Char) : Prop :=
  Derives .item text []

theorem Gap.trans {text middle rest : List Char} (front : Gap text middle)
    (back : Gap middle rest) : Gap text rest := by
  induction front with
  | nil => exact back
  | cons space others ih => exact .cons space (ih back)

theorem Derives.gap {text middle rest : List Char} {phrase : Phrase} (notValue : phrase ≠ .value)
    (gap : Gap text middle) (derives : Derives phrase middle rest) : Derives phrase text rest := by
  induction derives with
  | item before value after => exact .item (gap.trans before) value after
  | lastItem item ih => exact .lastItem (ih nofun gap)
  | items item more ih => exact .items (ih nofun gap) more
  | field before chars between item => exact .field (gap.trans before) chars between item
  | lastField field ih => exact .lastField (ih nofun gap)
  | fields field more ih => exact .fields (ih nofun gap) more
  | _ => exact absurd rfl notValue

end ShadowCheck.Json
