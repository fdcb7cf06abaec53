import DocumentMapper.Schema.Issue

/-!
# Parsing values

A schema both checks a value and shapes it: ids become references, keys that an
object does not declare are dropped, and so are write-only ones.

The two sides are two recursions over the schema.  `issues` lists what is wrong,
every issue once, in the order of the schema's fields and of the array's items;
`shape` is the value that is left, and counts only where there are no issues.
-/

namespace DocumentMapper
namespace Schema

def mismatch (schema : Schema) (value : Value) : Fault :=
  if value.isNull then
    .required
  else
    .invalidType schema.kindText value.kindText

/-!
## References

An id stands for the reference with that id, and a reference stands for itself,
whatever else the document that holds it carries.
-/

def shapeReference (collection : String) (value : Value) : Option Value :=
  match value with
  | .string id =>
      some (Reference.toValue { collection := collection, id := id })
  | _ =>
      match Reference.ofValue? value with
      | some target => if target.collection = collection then some value else none
      | none => none

/-!
## Issues
-/

mutual

def issuesAt : Schema -> List String -> Value -> List Issue
  | any, _, _ => []
  | hidden, _, _ => []
  | never, path, value =>
      if value.isNull then [] else [{ path := path, fault := .notAllowed }]
  | optional inner, path, value =>
      if value.isNull then [] else issuesAt inner path value
  | omittable inner, path, value => issuesAt inner path value
  | string, path, value =>
      match value with
      | .string _ => []
      | _ => [{ path := path, fault := string.mismatch value }]
  | number, path, value =>
      if value.isNumber then [] else [{ path := path, fault := number.mismatch value }]
  | boolean, path, value =>
      match value with
      | .bool _ => []
      | _ => [{ path := path, fault := boolean.mismatch value }]
  | oneOf options, path, value =>
      match value with
      | .string s =>
          if s ∈ options then []
          else [{ path := path, fault := .invalidOption options s }]
      | _ => [{ path := path, fault := (oneOf options).mismatch value }]
  | reference collection, path, value =>
      match shapeReference collection value with
      | some _ => []
      | none => [{ path := path, fault := (reference collection).mismatch value }]
  | array item, path, value =>
      match value with
      | .array items =>
          (items.mapIdx fun place element =>
            issuesAt item (path ++ [toString place]) element).flatten
      | _ => [{ path := path, fault := (array item).mismatch value }]
  | object fields, path, value =>
      match value with
      | .document entries => issuesOfFields fields path entries
      | _ => [{ path := path, fault := (object fields).mismatch value }]

/-- A key that is missing is checked as a null, unless it may be missing. -/
def issuesOfFields :
    List (String × Schema) -> List String -> Document -> List Issue
  | [], _, _ => []
  | (key, schema) :: rest, path, entries =>
      let own :=
        match Keyed.get? entries key with
        | some value => issuesAt schema (path ++ [key]) value
        | none =>
            if schema.isOmittable then []
            else issuesAt schema (path ++ [key]) .null
      own ++ issuesOfFields rest path entries

end

def issues (schema : Schema) (value : Value) : List Issue :=
  schema.issuesAt [] value

/-!
## Shaping
-/

mutual

def shape : Schema -> Value -> Value
  | any, value => value
  | hidden, _ => .null
  | never, _ => .null
  | optional inner, value => shape inner value
  | omittable inner, value => shape inner value
  | string, value => value
  | number, value => value
  | boolean, value => value
  | oneOf _, value => value
  | reference collection, value =>
      (shapeReference collection value).getD .null
  | array item, value =>
      match value with
      | .array items => .array (items.map fun element => shape item element)
      | _ => .null
  | object fields, value =>
      match value with
      | .document entries => .document (shapeFields fields entries [])
      | _ => .null

/-- Keys that are missing stay so, and write-only keys are dropped. -/
def shapeFields :
    List (String × Schema) -> Document -> Document -> Document
  | [], _, shaped => shaped
  | (key, schema) :: rest, entries, shaped =>
      match Keyed.get? entries key with
      | some value =>
          if schema.isHidden then
            shapeFields rest entries shaped
          else
            shapeFields rest entries (Keyed.insert shaped key (shape schema value))
      | none => shapeFields rest entries shaped

end

/-!
## Parsing
-/

def parse (schema : Schema) (value : Value) : Except (List Issue) Value :=
  match schema.issues value with
  | [] => .ok (schema.shape value)
  | found => .error found

/-- Parses a document, taking a result that is none for an empty one. -/
def parseDocument (schema : Schema) (entries : Document) :
    Except (List Issue) Document := do
  let parsed <- schema.parse (.document entries)
  pure (parsed.document?.getD [])

def accepts (schema : Schema) (value : Value) : Bool :=
  (schema.issues value).isEmpty

theorem parse_eq_ok_iff {schema : Schema} {value parsed : Value} :
    schema.parse value = .ok parsed <->
      schema.issues value = [] ∧ schema.shape value = parsed := by
  unfold parse
  cases schema.issues value <;> simp

theorem accepts_iff {schema : Schema} {value : Value} :
    schema.accepts value = true <-> schema.issues value = [] := by
  simp [accepts]

end Schema
end DocumentMapper
