import DocumentMapper.Model.Basic
import DocumentMapper.Schema.Parse

/-!
# The schemas of a model

What may be written to a model and what is read from it.  A reference is written
as an id and read as the related instance; the other relationships cannot be
written and are read as lists.  Every instance carries its id and its timestamp
after its fields.
-/

namespace DocumentMapper

def Schema.orAbsentIf (isOptional : Bool) (schema : Schema) : Schema :=
  if isOptional then schema.orAbsent else schema

def Field.writeSchema : Field -> Schema
  | .scalar written _ _ => written
  | .reference related isOptional _ _ =>
      (Schema.reference related.name).orAbsentIf isOptional
  | .manyToMany _ _ _ _ => .never
  | .reverse _ _ => .never

def Model.writeSchema (model : Model) : Schema :=
  .object (model.fields.map fun field => (field.1, field.2.writeSchema))

mutual

def Model.readSchema : Model -> Schema
  | { fields, .. } =>
      .object (Field.readSchemas fields ++ [("id", .string), ("ts", .number)])

def Field.readSchema : Field -> Schema
  | .scalar _ read _ => read
  | .reference related isOptional _ _ =>
      (Model.readSchema related).orAbsentIf isOptional
  | .manyToMany related _ _ _ => (Model.readSchema related).list
  | .reverse related _ => (Model.readSchema related).list

def Field.readSchemas : List (String × Field) -> List (String × Schema)
  | [] => []
  | (name, field) :: rest => (name, Field.readSchema field) :: Field.readSchemas rest

end

theorem Field.readSchemas_eq_map (fields : List (String × Field)) :
    Field.readSchemas fields =
      fields.map fun field => (field.1, field.2.readSchema) := by
  induction fields with
  | nil =>
      rfl
  | cons field rest ih =>
      simp [Field.readSchemas, ih]

end DocumentMapper
