import DocumentMapper.Decimal.Binary64
import DocumentMapper.Ordered

/-!
# JSON values

The form in which expressions travel to a database.  Objects are ordered maps, so
two values are equal exactly when they say the same, whatever the order in which
their members were written.
-/

namespace DocumentMapper

inductive Json where
  | null
  | bool (b : Bool)
  | int (n : Int)
  | double (x : Binary64)
  | string (s : String)
  | array (items : List Json)
  | object (members : List (String × Json))
deriving Inhabited

namespace Json

/-- An object with the given members, the last of equal names counting. -/
def ofMembers (members : List (String × Json)) : Json :=
  object (Ordered.ofList members)

def strings (items : List String) : Json :=
  array (items.map string)

/-!
## Reading
-/

def string? : Json -> Option String
  | string s => some s
  | _ => none

def bool? : Json -> Option Bool
  | bool b => some b
  | _ => none

def array? : Json -> Option (List Json)
  | array items => some items
  | _ => none

def strings? (json : Json) : Option (List String) := do
  (<- json.array?).mapM string?

/-!
## Reading records

A record is written as an object, its fields being found by name and unknown
names being passed over, or as an array that gives the fields in their order and
may stop early.
-/

def fields? (names : List String) : Json -> Option (List (Option Json))
  | object members =>
      some (names.map (Keyed.get? members))
  | array items =>
      if items.length <= names.length then
        some (names.mapIdx fun place _ => items[place]?)
      else
        none
  | _ => none

def required? {item : Type} (read : Json -> Option item) (field : Option Json) :
    Option item :=
  field.bind read

def optional? {item : Type} (read : Json -> Option item) (field : Option Json) :
    Option (Option item) :=
  match field with
  | none => some none
  | some null => some none
  | some json => (read json).map some

/-- Reads a field that is replaced by a default where it is missing. -/
def defaulted? {item : Type} (read : Json -> Option item) (default : item)
    (field : Option Json) : Option item :=
  match field with
  | none => some default
  | some json => read json

end Json
end DocumentMapper
