import DocumentMapper.Decimal.Layout
import DocumentMapper.Json.Basic
import DocumentMapper.Text.Quoted

/-!
# JSON as text

The compact text of a JSON value: no space anywhere, and the members of an object
in the order of their names.
-/

namespace DocumentMapper
namespace Json

/-- Numbers from a hundred-thousandth up to below ten quadrillion are written
plainly and always with a point; of two equally near decimals the even one is
taken. -/
def numberLayout : Decimal.Layout :=
  { tie := .toEven
    plainFrom := -5
    plainTo := 15
    keepsPoint := true }

mutual

def text : Json -> String
  | null => "null"
  | bool b => if b then "true" else "false"
  | int n => toString n
  | double x => numberLayout.text x
  | string s => Text.jsonQuoted s
  | array items => "[" ++ ",".intercalate (itemTexts items) ++ "]"
  | object members => "\x7b" ++ ",".intercalate (memberTexts members) ++ "\x7d"

def itemTexts : List Json -> List String
  | [] => []
  | item :: rest => text item :: itemTexts rest

def memberTexts : List (String × Json) -> List String
  | [] => []
  | (name, member) :: rest =>
      (Text.jsonQuoted name ++ ":" ++ text member) :: memberTexts rest

end

end Json
end DocumentMapper
