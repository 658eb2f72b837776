/-! JSON values. Whole numbers of 64 bits are kept exactly, all other numbers as doubles. -/

namespace ShadowCheck.Json

inductive Value
  | null
  | boolean (value : Bool)
  | integer (value : Int)
  | double (value : Float)
  | string (text : String)
  | array (items : List Value)
  | object (fields : List (String × Value))
deriving Inhabited

namespace Value

def string? : Value → Option String
  | string text => some text
  | _ => none

def boolean? : Value → Option Bool
  | boolean value => some value
  | _ => none

def fields? : Value → Option (List (String × Value))
  | object fields => some fields
  | _ => none

/-- Puts a field in the order of the names; a field of that name is replaced. -/
def insertField (name : String) (value : Value) :
    List (String × Value) → List (String × Value)
  | [] => [(name, value)]
  | (other, held) :: rest =>
      if name < other then (name, value) :: (other, held) :: rest
      else if name = other then (name, value) :: rest
      else (other, held) :: insertField name value rest

theorem lookup_insertField_self (name : String) (value : Value)
    (fields : List (String × Value)) :
    (insertField name value fields).lookup name = some value := by
  fun_induction insertField name value fields with
  | case1 => simp
  | case2 => simp
  | case3 => simp
  | case4 other _ _ _ different ih =>
      rw [List.lookup_cons, beq_false_of_ne different]
      exact ih

theorem lookup_insertField_of_ne {name wanted : String} (h : wanted ≠ name) (value : Value)
    (fields : List (String × Value)) :
    (insertField name value fields).lookup wanted = fields.lookup wanted := by
  have off : (wanted == name) = false := beq_false_of_ne h
  fun_induction insertField name value fields with
  | case1 => simp [List.lookup_cons, off]
  | case2 => simp [List.lookup_cons, off]
  | case3 => simp [List.lookup_cons, off]
  | case4 _ _ _ _ _ ih => rw [List.lookup_cons, List.lookup_cons, ih]

end Value

end ShadowCheck.Json
