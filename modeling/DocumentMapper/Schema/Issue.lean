import DocumentMapper.Schema.Basic

/-!
# Issues

What a schema finds wrong with a value: a place in the value, and what is the
matter there.
-/

namespace DocumentMapper

namespace Value

def kindText (value : Value) : String :=
  match value with
  | null => "null"
  | string _ => "string"
  | int _ _ => "number"
  | double _ => "number"
  | bool _ => "boolean"
  | array _ => "array"
  | document _ =>
      if Reference.isReference value then "reference" else "object"
  | _ => "unsupported value"

end Value

namespace Schema

def kindText : Schema -> String
  | any => "any"
  | string => "string"
  | number => "number"
  | boolean => "boolean"
  | oneOf options => "one of " ++ ", ".intercalate options
  | object _ => "object"
  | array item => "array of " ++ item.kindText
  | optional inner => "optional " ++ inner.kindText
  | omittable inner => inner.kindText
  | never => "nothing"
  | hidden => "anything"
  | reference collection => "id of " ++ collection

end Schema

inductive Fault where
  /-- A value has to be there, and none is. -/
  | required
  /-- No value may be there, and one is. -/
  | notAllowed
  | invalidType (expected found : String)
  | invalidOption (options : List String) (found : String)
deriving DecidableEq

/-- A fault, and the keys and positions that lead to it. -/
structure Issue where
  path : List String
  fault : Fault
deriving DecidableEq

namespace Issue

def placeText (path : List String) : String :=
  if path.isEmpty then "value" else ".".intercalate path

def text (issue : Issue) : String :=
  placeText issue.path ++ ": " ++
    match issue.fault with
    | .required => "required"
    | .notAllowed => "not allowed"
    | .invalidType expected found =>
        "expected " ++ expected ++ ", received " ++ found
    | .invalidOption options found =>
        "expected one of [" ++ ", ".intercalate options ++ "], received '" ++
          found ++ "'"

end Issue
end DocumentMapper
