import DocumentMapper.Error

/-!
# Models

A model describes the instances of one kind: its name is the name of their
collection, and each of its fields says what may be written, what is read, where
it is stored and which indexes it needs.

A field holds a plain value, a reference to an instance of another model, a
many-to-many relationship whose links are rows of a collection of their own, or
the reverse side of a relationship that another model declares.
-/

namespace DocumentMapper

structure FieldOptions where
  /-- The name of one item of the field, for callers. -/
  singular : Option String
  /-- A unique index is kept over the field. -/
  unique : Bool
  /-- An index is kept over the field, its entries being sorted like this. -/
  indexed : Option (List String)
deriving DecidableEq

namespace FieldOptions

def plain : FieldOptions :=
  { singular := none, unique := false, indexed := none }

def hasIndex (options : FieldOptions) : Bool :=
  options.unique || options.indexed.isSome

end FieldOptions

structure Relation where
  /-- The name of the reverse side, which is kept only where there is one. -/
  reverse : Option String
  /-- The name of the reverse index, in place of the one derived. -/
  reverseIndex : Option String
  /-- The order of the index entries. -/
  sort : Option (List String)
deriving DecidableEq

def Relation.oneWay : Relation :=
  { reverse := none, reverseIndex := none, sort := none }

/-- Names in place of those that a many-to-many relationship derives. -/
structure JoinNames where
  forwardIndex : Option String
  collection : Option String
deriving DecidableEq

def JoinNames.derived : JoinNames :=
  { forwardIndex := none, collection := none }

mutual

structure Model where
  name : String
  /-- The fields in the order in which they were declared. -/
  fields : List (String × Field)
  /-- The model extends another and has no storage of its own. -/
  derived : Bool

inductive Field where
  | scalar (written read : Schema) (options : FieldOptions)
  | reference (related : Model) (isOptional : Bool) (relation : Relation)
      (options : FieldOptions)
  | manyToMany (related : Model) (relation : Relation) (join : JoinNames)
      (singular : Option String)
  | reverse (related : Model) (index : String)

end

def Model.field? (model : Model) (name : String) : Option Field :=
  Keyed.get? model.fields name

/-!
## Names
-/

def ownIndexName (model field : String) : String :=
  model ++ "_by_" ++ field

namespace Relation

/-- The name of the index that answers which rows point at an instance. -/
def reverseIndexName? (relation : Relation) (field : String) : Option String :=
  relation.reverse.map fun reverse =>
    relation.reverseIndex.getD (reverse ++ "_by_" ++ field)

end Relation

namespace JoinNames

/-- The name of the collection that holds the links. -/
def collectionName (join : JoinNames) (model field : String) : String :=
  join.collection.getD (model ++ "_" ++ field)

/-- The name of the index that lists the related instances of one owner. -/
def forwardIndexName (join : JoinNames) (model field : String) : String :=
  join.forwardIndex.getD (field ++ "_by_" ++ model)

end JoinNames

def ownerKey (model : String) : String :=
  model ++ "_ref"

def relatedKey (field : String) : String :=
  field ++ "_ref"

/-!
## Fields
-/

namespace Field

def options : Field -> FieldOptions
  | scalar _ _ options => options
  | reference _ _ _ options => options
  | manyToMany _ _ _ singular => { FieldOptions.plain with singular := singular }
  | reverse _ _ => FieldOptions.plain

def relation? : Field -> Option (Model × Relation)
  | reference related _ relation _ => some (related, relation)
  | manyToMany related relation _ _ => some (related, relation)
  | _ => none

def reverseIndexName (field : Field) (name : String) : Except Misuse String :=
  match field.relation? with
  | some (_, relation) =>
      match relation.reverseIndexName? name with
      | some index => .ok index
      | none => .error (.noReverse name)
  | none => .error (.notARelationship name)

/-- Where the field lies in a stored document, unless it is stored elsewhere. -/
def path? (field : Field) (name : String) : Option (List String) :=
  match field with
  | scalar _ _ _ => some (dataPath name)
  | reference _ _ _ _ => some (dataPath name)
  | _ => none

end Field
end DocumentMapper
