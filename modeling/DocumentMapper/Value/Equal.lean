import DocumentMapper.Value.Basic

/-!
# Equality of values

Two values are equal when they have the same type and the same content.  The
order of a document's keys does not count, a double is compared as a number, so
that the two zeros are equal and a NaN equals nothing, and integers of different
widths differ.
-/

namespace DocumentMapper
namespace Value

def equalDoubles (x y : Binary64) : Bool :=
  match x.rank?, y.rank? with
  | some a, some b => a == b
  | _, _ => false

mutual

def equal : Value -> Value -> Bool
  | null, null => true
  | bool a, bool b => a == b
  | int w a, int v b => w == v && a == b
  | double x, double y => equalDoubles x y
  | string a, string b => a == b
  | array as, array bs => equalItems as bs
  | document as, document bs =>
      as.length == bs.length && equalEntries as bs
  | date a, date b => a == b
  | objectId a, objectId b => a == b
  | binary a, binary b => a == b
  | timestamp s i, timestamp t j => s == t && i == j
  | code a, code b => a == b
  | symbol a, symbol b => a == b
  | undefined, undefined => true
  | minKey, minKey => true
  | maxKey, maxKey => true
  | _, _ => false

def equalItems : List Value -> List Value -> Bool
  | [], [] => true
  | a :: as, b :: bs => equal a b && equalItems as bs
  | _, _ => false

def equalEntries : List (String × Value) -> Document -> Bool
  | [], _ => true
  | (key, a) :: rest, bs =>
      match Keyed.get? bs key with
      | some b => equal a b && equalEntries rest bs
      | none => false

end

instance : BEq Value where
  beq := Value.equal

end Value
end DocumentMapper
