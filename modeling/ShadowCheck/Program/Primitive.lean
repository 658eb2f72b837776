import ShadowCheck.Script.Basic

/-! The types that an annotation can name. -/

namespace ShadowCheck

inductive Primitive
  | string
  | number
  | boolean
  | any
deriving DecidableEq, Repr

namespace Primitive

def text : Primitive → String
  | string => "string"
  | number => "number"
  | boolean => "boolean"
  | any => "any"

def ofText? (text : String) : Option Primitive :=
  match text with
  | "string" => some string
  | "number" => some number
  | "boolean" => some boolean
  | "any" => some any
  | _ => none

/-- Whether a variable of type `declared` takes a value of type `actual`. -/
def accepts (declared actual : Primitive) : Bool :=
  actual == declared || actual == any || declared == any

end Primitive

namespace Script

/-- The type of a literal; a reference has none of its own. -/
def Value.primitive? : Value → Option Primitive
  | quoted .. => some .string
  | number .. => some .number
  | boolean .. => some .boolean
  | reference _ => none

def Declaration.annotated? (declaration : Declaration) : Option Primitive :=
  declaration.type?.bind fun name => Primitive.ofText? name.text

end Script

end ShadowCheck
