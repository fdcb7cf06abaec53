import DocumentMapper.Model.Basic

/-!
# Declaring models

A model is declared by its fields, a later field taking the place of an earlier
one of its name.  A model is extended by the reverse sides of relationships that
another model declares to it; the extended model reads more and stores nothing.
-/

namespace DocumentMapper
namespace Model

/-- What every instance carries beside its fields. -/
def reservedFields : List String :=
  ["id", "ts"]

def checkFieldName (model field : String) : Except Misuse Unit :=
  if field ∈ reservedFields then
    .error (.reservedField model field)
  else
    .ok ()

def declare (name : String) (fields : List (String × Field)) :
    Except Misuse Model := do
  let fields := Keyed.ofList fields
  fields.forM fun field => checkFieldName name field.1
  pure { name := name, fields := fields, derived := false }

def reverseSide (other : Model) (remote : String) : Except Misuse Field := do
  match other.field? remote with
  | some field =>
      let index <- field.reverseIndexName remote
      pure (.reverse other index)
  | none => throw (.noField other.name remote)

def addReverse (model other : Model) (fields : List (String × Field))
    (entry : String × String) : Except Misuse (List (String × Field)) := do
  let field <- reverseSide other entry.2
  checkFieldName model.name entry.1
  pure (Keyed.insert fields entry.1 field)

/-- Extends a model by lists of another's instances.  The mapping pairs a name for
each list with the relationship it reverses. -/
def reverse (model other : Model) (mapping : List (String × String)) :
    Except Misuse Model := do
  let fields <- mapping.foldlM (addReverse model other) model.fields
  pure { model with fields := fields, derived := true }

end Model
end DocumentMapper
