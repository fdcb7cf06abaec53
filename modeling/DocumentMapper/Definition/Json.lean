import DocumentMapper.Definition.Basic
import DocumentMapper.Json.Basic
import DocumentMapper.Value.Reference

/-!
# Definitions as JSON

Reading references and definitions from JSON, and writing them.  What was
written is read back as it was.
-/

namespace DocumentMapper

namespace Reference

def ofJson? (json : Json) : Option Reference := do
  match (<- json.fields? ["collection", "id"]) with
  | [collection, id] =>
      some
        { collection := (<- Json.required? Json.string? collection)
          id := (<- Json.required? Json.string? id) }
  | _ => none

def toJson (reference : Reference) : Json :=
  Json.ofMembers
    [("collection", .string reference.collection), ("id", .string reference.id)]

end Reference

namespace IndexTerm

def ofJson? (json : Json) : Option IndexTerm := do
  match (<- json.fields? ["field"]) with
  | [field] => some { field := (<- Json.required? Json.strings? field) }
  | _ => none

def toJson (term : IndexTerm) : Json :=
  Json.ofMembers [("field", Json.strings term.field)]

end IndexTerm

namespace IndexValue

def ofJson? (json : Json) : Option IndexValue := do
  match (<- json.fields? ["field", "reverse"]) with
  | [field, reverse] =>
      some
        { field := (<- Json.required? Json.strings? field)
          reverse := (<- Json.defaulted? Json.bool? false reverse) }
  | _ => none

def toJson (value : IndexValue) : Json :=
  Json.ofMembers
    [("field", Json.strings value.field), ("reverse", .bool value.reverse)]

end IndexValue

namespace IndexDefinition

def terms? (json : Json) : Option (List IndexTerm) := do
  (<- json.array?).mapM IndexTerm.ofJson?

def values? (json : Json) : Option (List IndexValue) := do
  (<- json.array?).mapM IndexValue.ofJson?

def ofJson? (json : Json) : Option IndexDefinition := do
  match (<- json.fields? ["name", "source", "terms", "values", "unique"]) with
  | [name, source, terms, values, unique] =>
      some
        { name := (<- Json.required? Json.string? name)
          source := (<- Json.required? Json.string? source)
          terms := (<- Json.required? terms? terms)
          values := (<- Json.required? values? values)
          unique := (<- Json.optional? Json.bool? unique) }
  | _ => none

/-- Nothing is written about uniqueness where nothing is said about it. -/
def toJson (index : IndexDefinition) : Json :=
  Json.ofMembers
    ([("name", .string index.name),
      ("source", .string index.source),
      ("terms", .array (index.terms.map IndexTerm.toJson)),
      ("values", .array (index.values.map IndexValue.toJson))] ++
      (index.unique.map fun unique => ("unique", Json.bool unique)).toList)

end IndexDefinition

namespace CollectionDefinition

def ofJson? (json : Json) : Option CollectionDefinition := do
  match (<- json.fields? ["name"]) with
  | [name] => some { name := (<- Json.required? Json.string? name) }
  | _ => none

def toJson (collection : CollectionDefinition) : Json :=
  Json.ofMembers [("name", .string collection.name)]

end CollectionDefinition

end DocumentMapper
