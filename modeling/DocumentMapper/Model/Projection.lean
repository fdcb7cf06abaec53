import DocumentMapper.Model.Basic

/-!
# Reading instances

The queries that build the instances of a model out of stored documents.

A document is loaded once, and every key of the instance is computed from it
behind a test of presence: where the path of a field is missing the key is null
and nothing is followed.  The queries of related models are nested inside, each
binding the same three variables anew.
-/

namespace DocumentMapper
namespace Expr

/-!
## Variables and guards
-/

def refVar : String :=
  "ref"

def documentVar : String :=
  "document"

/-- An entry of the set that is listed. -/
def valuesVar : String :=
  "values"

/-- A path that every document has. -/
def anywhere : List String :=
  ["ts"]

/-- A value, or null where the document lacks a path. -/
def guarded (presence : List String) (value : Expr) : Expr :=
  ifThenElse (containsPath (path presence) (var documentVar)) value null

def stored (location : List String) : Expr :=
  select (path location) (var documentVar)

/-!
## Lists
-/

def lastValue : Expr :=
  select (subtract [count (var valuesVar), literal (.int .short 1)])
    (var valuesVar)

/-- The items of a set, each read by an expression over its reference. -/
def listing (set reference item : Expr) : Expr :=
  select (path ["data"])
    (map (paginate set none)
      (lambda [valuesVar] (letIn [(refVar, reference)] item)))

def listCollection (name : String) (item : Expr) : Expr :=
  listing (documents (collection name)) (var valuesVar) item

/-- The documents that the entries of an index end in. -/
def listIndex (name : String) (terms : List Expr) (item : Expr) : Expr :=
  listing (matching (index name) (array terms)) lastValue item

end Expr

/-!
## Instances
-/

mutual

/-- Loads the document that a reference names and builds the instance. -/
def Model.dereference : Model -> Expr -> Expr
  | { name, fields, .. }, reference =>
      .letIn
        [(Expr.refVar, reference),
          (Expr.documentVar, .get (.var Expr.refVar))]
        (.object
          (("id", Expr.guarded ["ref"] (Expr.stored ["ref", "id"])) ::
            ("ts", Expr.guarded ["ts"] (Expr.stored ["ts"])) ::
            Field.projections name fields))

def Field.query (owner name : String) : Field -> Expr
  | .scalar _ _ _ =>
      .selectOr (Expr.path (dataPath name)) (.var Expr.documentVar) Expr.null
  | .reference related isOptional _ _ =>
      let followed := Model.dereference related (Expr.stored (dataPath name))
      if isOptional then Expr.guarded (dataPath name) followed else followed
  | .manyToMany related _ join _ =>
      Expr.listIndex (join.forwardIndexName owner name) [.var Expr.refVar]
        (Model.dereference related (.var Expr.refVar))
  | .reverse related index =>
      Expr.listIndex index [.var Expr.refVar]
        (Model.dereference related (.var Expr.refVar))

def Field.projections (owner : String) :
    List (String × Field) -> List (String × Expr)
  | [] => []
  | (name, field) :: rest =>
      (name,
        Expr.guarded ((field.path? name).getD Expr.anywhere)
          (Field.query owner name field)) ::
        Field.projections owner rest

end

namespace Model

/-- Lists the instances of the collection, or those that the entries of an index
under the given terms lead to. -/
def paginate (model : Model) (index : Option String) (terms : List Expr) : Expr :=
  let item := model.dereference (.var Expr.refVar)
  match index with
  | some name => Expr.listIndex name terms item
  | none => Expr.listCollection model.name item

def refFromId (model : Model) (id : String) : Expr :=
  Expr.documentRef model.name id

end Model

theorem Field.projections_eq_map (owner : String)
    (fields : List (String × Field)) :
    Field.projections owner fields =
      fields.map fun field =>
        (field.1,
          Expr.guarded ((field.2.path? field.1).getD Expr.anywhere)
            (field.2.query owner field.1)) := by
  induction fields with
  | nil =>
      rfl
  | cons field rest ih =>
      simp [Field.projections, ih]

end DocumentMapper
