import DocumentMapper.Model.Projection
import DocumentMapper.Model.Schema
import DocumentMapper.Model.Storage

/-!
# Requests

The expressions by which the instances of a model are created, read, changed and
deleted.  Building one checks what is asked for against the model and touches no
database.
-/

namespace DocumentMapper
namespace Model

def requireField (model : Model) (name : String) : Except Misuse Field :=
  match model.field? name with
  | some field => .ok field
  | none => .error (.noField model.name name)

/-!
## Reading
-/

def getRequest (model : Model) (id : String) : Expr :=
  model.dereference (model.refFromId id)

/-- Lists the instances that the own index of a field has under a term. -/
def ownIndexRequest (model : Model) (field : String) (term : Value) : Expr :=
  model.paginate (some (ownIndexName model.name field)) [.literal term]

def getByRequest (model : Model) (name : String) (term : Value) :
    Except Misuse Expr := do
  let field <- model.requireField name
  if field.options.unique then
    pure (model.ownIndexRequest name term)
  else
    throw (.notUnique name)

def paginateByRequest (model : Model) (name : String) (term : Value) :
    Except Misuse Expr := do
  let field <- model.requireField name
  if field.options.unique then
    throw (.isUnique name)
  else if field.options.hasIndex then
    pure (model.ownIndexRequest name term)
  else
    throw (.notIndexed name)

/-!
## Writing
-/

def dataParams (data : Document) : Expr :=
  .object [("data", .literal (.document data))]

def createRequest (model : Model) (data : Document) :
    Except (List Issue) Expr := do
  let parsed <- model.writeSchema.parseDocument data
  pure (.create (.collection model.name) (dataParams parsed))

/-- Fields that the data does not mention stay as they are. -/
def updateRequest (model : Model) (id : String) (data : Document) :
    Except (List Issue) Expr := do
  let parsed <- model.writeSchema.relaxed.parseDocument data
  pure (.update (model.refFromId id) (dataParams parsed))

def deleteRequest (model : Model) (id : String) : Expr :=
  .delete (model.refFromId id)

def linkRequest (model : Model) (id field related : String) :
    Except Misuse Expr := do
  match (<- model.requireField field) with
  | .manyToMany other _ join _ =>
      pure
        (join.link model.name field (model.refFromId id)
          (other.refFromId related))
  | _ => throw (.notManyToMany field)

end Model
end DocumentMapper
