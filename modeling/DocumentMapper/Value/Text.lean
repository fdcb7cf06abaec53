import DocumentMapper.Decimal.Layout
import DocumentMapper.Text.Calendar
import DocumentMapper.Text.Octets
import DocumentMapper.Value.Basic

/-!
# Values as text

The written form of a value in messages.  Strings stand between quotes as they
are, without escapes, so the form is for readers and cannot be read back.
-/

namespace DocumentMapper
namespace Value

/-- No exponent is ever written, a whole number ends without a point, and of two
equally near decimals the greater is taken. -/
def doubleLayout : Decimal.Layout :=
  { tie := .up
    plainFrom := -400
    plainTo := 400
    keepsPoint := false }

def quoted (s : String) : String :=
  "\"" ++ s ++ "\""

mutual

def text : Value -> String
  | null => "null"
  | bool b => if b then "true" else "false"
  | int _ n => toString n
  | double x => doubleLayout.text x
  | string s => quoted s
  | array items => "[" ++ ", ".intercalate (itemTexts items) ++ "]"
  | document [] => "\x7b\x7d"
  | document (entry :: rest) =>
      "\x7b " ++ ", ".intercalate (entryTexts (entry :: rest)) ++ " \x7d"
  | date millis => "DateTime(" ++ quoted (Text.momentText millis) ++ ")"
  | objectId octets => "ObjectId(" ++ quoted (Text.hex octets) ++ ")"
  | binary octets => "Binary(0x0, " ++ Text.base64 octets ++ ")"
  | timestamp seconds increment =>
      "Timestamp(" ++ toString seconds ++ ", " ++ toString increment ++ ")"
  | code source => source
  | symbol s => "Symbol(" ++ quoted s ++ ")"
  | undefined => "undefined"
  | minKey => "MinKey"
  | maxKey => "MaxKey"

def itemTexts : List Value -> List String
  | [] => []
  | item :: rest => text item :: itemTexts rest

def entryTexts : List (String × Value) -> List String
  | [] => []
  | (key, item) :: rest => (quoted key ++ ": " ++ text item) :: entryTexts rest

end

end Value
end DocumentMapper
