import DocumentMapper.Model.Basic

/-!
# Storage of a model

The statements that create the collections and the indexes of a model, and those
that drop them again.  A derived model has no storage, so nothing is created for
it and nothing dropped.
-/

namespace DocumentMapper

/-!
## Indexes
-/

def FieldOptions.ownIndex? (options : FieldOptions) (model field : String) :
    Option IndexDefinition :=
  if options.hasIndex then
    some
      { name := ownIndexName model field
        source := model
        terms := [{ field := dataPath field }]
        values := sortValues options.indexed ++ [IndexValue.ownReference]
        unique := some options.unique }
  else
    none

/-- The index over a reference field that leads back from the related instance. -/
def Relation.reverseIndex? (relation : Relation) (model field : String) :
    Option IndexDefinition :=
  (relation.reverseIndexName? field).map fun name =>
    { name := name
      source := model
      terms := [{ field := dataPath field }]
      values := sortValues relation.sort ++ [IndexValue.ownReference]
      unique := none }

/-- An index over links, from one end to the other. -/
def Relation.joinIndex (relation : Relation) (name source start goal : String) :
    IndexDefinition :=
  { name := name
    source := source
    terms := [{ field := dataPath start }]
    values :=
      sortValues relation.sort ++ [{ field := dataPath goal, reverse := false }]
    unique := none }

namespace Field

def indexes (model name : String) : Field -> List IndexDefinition
  | scalar _ _ options => (options.ownIndex? model name).toList
  | reference _ _ relation options =>
      (options.ownIndex? model name).toList ++
        (relation.reverseIndex? model name).toList
  | manyToMany _ relation join _ =>
      let source := join.collectionName model name
      relation.joinIndex (join.forwardIndexName model name) source
          (ownerKey model) (relatedKey name) ::
        ((relation.reverseIndexName? name).map fun reverse =>
          relation.joinIndex reverse source (relatedKey name)
            (ownerKey model)).toList
  | reverse _ _ => []

def collections (model name : String) : Field -> List CollectionDefinition
  | manyToMany _ _ join _ => [{ name := join.collectionName model name }]
  | _ => []

/-!
## Statements
-/

def indexStatements (model name : String) (field : Field) : List Expr :=
  (field.indexes model name).map Expr.createIndex

def constructStatements (model name : String) (field : Field) : List Expr :=
  (field.collections model name).map Expr.createCollection

def dropIndex? (name : Option String) : List Expr :=
  (name.map fun name => Expr.delete (.index name)).toList

/-- Undoes what the other statements do, indexes before collections. -/
def deconstructStatements (model name : String) : Field -> List Expr
  | scalar _ _ options =>
      dropIndex? (if options.hasIndex then some (ownIndexName model name) else none)
  | reference _ _ relation options =>
      dropIndex?
          (if options.hasIndex then some (ownIndexName model name) else none) ++
        dropIndex? (relation.reverseIndexName? name)
  | manyToMany _ relation join _ =>
      dropIndex? (some (join.forwardIndexName model name)) ++
        dropIndex? (relation.reverseIndexName? name) ++
        [.delete (.collection (join.collectionName model name))]
  | reverse _ _ => []

end Field

def JoinNames.link (join : JoinNames) (model field : String)
    (owner related : Expr) : Expr :=
  .create (.collection (join.collectionName model field))
    (.object
      [("data",
        .object [(ownerKey model, owner), (relatedKey field, related)])])

/-!
## Models
-/

namespace Model

/-- What the fields of a model contribute, each under its name. -/
def perField {item : Type} (model : Model)
    (contribution : String -> String -> Field -> List item) : List item :=
  model.fields.flatMap fun field => contribution model.name field.1 field.2

def construct (model : Model) : Expr :=
  if model.derived then
    .batch []
  else
    .batch
      (.createCollection { name := model.name } ::
        model.perField Field.constructStatements)

/-- Creates the indexes, over collections that are already there. -/
def index (model : Model) : Expr :=
  if model.derived then
    .batch []
  else
    .batch (model.perField Field.indexStatements)

def deconstruct (model : Model) : Expr :=
  if model.derived then
    .batch []
  else
    .batch
      (model.perField Field.deconstructStatements ++
        [.delete (.collection model.name)])

end Model
end DocumentMapper
