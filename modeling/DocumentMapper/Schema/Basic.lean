import DocumentMapper.Value.Reference

/-!
# Schemas

A schema describes the values that may be written to a place, or that are read
from it.  To a schema a null and an absent value are the same, except that an
omittable key of an object may be missing but may not hold a null that its own
schema refuses.
-/

namespace DocumentMapper

inductive Schema where
  /-- Every value, and absence. -/
  | any
  | string
  | number
  | boolean
  /-- One of the given strings. -/
  | oneOf (options : List String)
  /-- A document with the given keys; other keys are dropped. -/
  | object (fields : List (String × Schema))
  | array (item : Schema)
  /-- A value of the inner schema, or absence. -/
  | optional (inner : Schema)
  /-- A value of the inner schema, or a missing key of an object. -/
  | omittable (inner : Schema)
  /-- Absence only: a place that cannot be written directly. -/
  | never
  /-- Every value, which then counts as absent: a place that is only written. -/
  | hidden
  /-- A reference into a collection, or the id of one of its documents. -/
  | reference (collection : String)
deriving Inhabited

namespace Schema

def isHidden : Schema -> Bool
  | hidden => true
  | _ => false

def isOmittable : Schema -> Bool
  | omittable _ => true
  | _ => false

def orAbsent : Schema -> Schema
  | optional inner => optional inner
  | schema => optional schema

def list (schema : Schema) : Schema :=
  array schema

def orMissing (schema : Schema) : Schema :=
  if schema.isOmittable then schema else omittable schema

/-- The schema of a patch: every key of an object may be missing. -/
def relaxed : Schema -> Schema
  | object fields =>
      object (fields.map fun field => (field.1, field.2.orMissing))
  | schema => schema

/-!
## Equality

Schemas are equal when they are built alike, options and fields in the same
order.
-/

mutual

def eq : Schema -> Schema -> Bool
  | any, any => true
  | string, string => true
  | number, number => true
  | boolean, boolean => true
  | oneOf a, oneOf b => a == b
  | object a, object b => eqFields a b
  | array a, array b => eq a b
  | optional a, optional b => eq a b
  | omittable a, omittable b => eq a b
  | never, never => true
  | hidden, hidden => true
  | reference a, reference b => a == b
  | _, _ => false

def eqFields : List (String × Schema) -> List (String × Schema) -> Bool
  | [], [] => true
  | (k, a) :: as, (j, b) :: bs => k == j && eq a b && eqFields as bs
  | _, _ => false

end

instance : BEq Schema where
  beq := Schema.eq

end Schema
end DocumentMapper
