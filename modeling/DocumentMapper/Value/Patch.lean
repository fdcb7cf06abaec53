import DocumentMapper.Value.Basic

/-!
# Patches

A patch is a document that says what to change in another: a null removes a key,
a document is merged into the document that is already there, and any other
value is written in place of the old one.  Arrays are values like any other: the
nulls inside them are kept.
-/

namespace DocumentMapper
namespace Document

/-!
## Dropping nulls
-/

mutual

def kept : Value -> Option Value
  | .null => none
  | .document nested => some (.document (withoutNulls nested))
  | value => some value

/-- The entries that are not null, at every depth that documents reach. -/
def withoutNulls : List (String × Value) -> Document
  | [] => []
  | (key, value) :: rest =>
      match kept value with
      | some left => (key, left) :: withoutNulls rest
      | none => withoutNulls rest

end

/-!
## Merging
-/

def assign (target : Document) (key : String) : Option Value -> Document
  | some value => Keyed.insert target key value
  | none => Keyed.erase target key

mutual

/-- What is left under a key where a value of a patch meets an old one. -/
def mergeValue (old : Option Value) : Value -> Option Value
  | .null => none
  | .document nested =>
      match old with
      | some (.document existing) => some (.document (merge existing nested))
      | _ => some (.document (withoutNulls nested))
  | value => some value

def merge (target : Document) : List (String × Value) -> Document
  | [] => target
  | (key, value) :: rest =>
      merge (assign target key (mergeValue (Keyed.get? target key) value)) rest

end

end Document
end DocumentMapper
