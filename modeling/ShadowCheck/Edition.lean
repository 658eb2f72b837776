/-! Editions of the scripting language, from the oldest to the newest. -/

namespace ShadowCheck

inductive Edition
  | es3
  | es5
  | es2015
  | es2016
  | es2017
  | es2018
  | es2019
  | es2020
  | es2021
  | es2022
  | esnext
deriving DecidableEq, Repr

namespace Edition

def all : List Edition :=
  [es3, es5, es2015, es2016, es2017, es2018, es2019, es2020, es2021, es2022, esnext]

def latest : Edition := esnext

def default : Edition := es5

def text : Edition → String
  | es3 => "es3"
  | es5 => "es5"
  | es2015 => "es2015"
  | es2016 => "es2016"
  | es2017 => "es2017"
  | es2018 => "es2018"
  | es2019 => "es2019"
  | es2020 => "es2020"
  | es2021 => "es2021"
  | es2022 => "es2022"
  | esnext => "esnext"

def le (left right : Edition) : Bool :=
  left.ctorIdx ≤ right.ctorIdx

/-- Reads an edition in any mixture of ASCII cases; `es6` is another name of `es2015`. -/
def ofText? (text : String) : Option Edition :=
  let lowered := text.map Char.toLower
  if lowered = "es6" then some es2015
  else all.find? fun edition => edition.text = lowered

theorem ofText?_text (edition : Edition) : ofText? edition.text = some edition := by
  cases edition <;> decide +kernel

inductive ReadError
  | unknown (text : String)

def ReadError.message : ReadError → String
  | unknown text => "unknown language level '" ++ text ++ "'"

def ofText (text : String) : Except ReadError Edition :=
  match ofText? text with
  | some edition => .ok edition
  | none => .error (.unknown text)

end Edition

end ShadowCheck
