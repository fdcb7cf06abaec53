import DocumentMapper.Json.Text
import DocumentMapper.Query.Expr
import DocumentMapper.Value.Text

/-!
# The wire form of expressions

The JSON value in which an expression is sent to a database.  Every operator is
an object with a member of its own name, and a literal document stands under the
member `object`, so no literal can be taken for an operator.
-/

namespace DocumentMapper

namespace Reference

def wire (reference : Reference) : Json :=
  Json.ofMembers
    [(key, Json.ofMembers
      [("collection", .string reference.collection), ("id", .string reference.id)])]

end Reference

namespace Value

mutual

/-- Numbers without a JSON form are sent as null, and the types that JSON lacks as
their text. -/
def wire : Value -> Json
  | null => .null
  | bool b => .bool b
  | int _ n => .int n
  | double x => if x.isFinite then .double x else .null
  | string s => .string s
  | array items => .array (itemWires items)
  | document entries =>
      match Reference.ofValue? (document entries) with
      | some reference => reference.wire
      | none => Json.ofMembers [("object", Json.ofMembers (entryWires entries))]
  | other => .string other.text

def itemWires : List Value -> List Json
  | [] => []
  | item :: rest => wire item :: itemWires rest

def entryWires : List (String × Value) -> List (String × Json)
  | [] => []
  | (key, item) :: rest => (key, wire item) :: entryWires rest

end

end Value

namespace CollectionDefinition

def wire (definition : CollectionDefinition) : Json :=
  Json.ofMembers [("object", Json.ofMembers [("name", .string definition.name)])]

end CollectionDefinition

namespace IndexDefinition

def termWire (term : IndexTerm) : Json :=
  Json.ofMembers
    [("object", Json.ofMembers [("field", Json.strings term.field)])]

def valueWire (value : IndexValue) : Json :=
  Json.ofMembers
    [("object", Json.ofMembers
      [("field", Json.strings value.field), ("reverse", .bool value.reverse)])]

def wire (definition : IndexDefinition) : Json :=
  Json.ofMembers
    [("object", Json.ofMembers
      ([("name", .string definition.name),
        ("source", Json.ofMembers [("collection", .string definition.source)]),
        ("terms", .array (definition.terms.map termWire)),
        ("values", .array (definition.values.map valueWire))] ++
        (definition.unique.map fun unique => ("unique", Json.bool unique)).toList))]

end IndexDefinition

namespace Expr

/-- A single parameter stands by itself. -/
def parametersWire : List String -> Json
  | [parameter] => .string parameter
  | parameters => Json.strings parameters

def sizeWire (size : Option Nat) : List (String × Json) :=
  (size.map fun n => ("size", Json.int n)).toList

mutual

def wire : Expr -> Json
  | literal value => value.wire
  | array items => .array (wires items)
  | object entries =>
      Json.ofMembers [("object", Json.ofMembers (entryWires entries))]
  | var name => Json.ofMembers [("var", .string name)]
  | letIn bindings body =>
      Json.ofMembers
        [("let", .array ((entryWires bindings).map fun binding =>
            Json.ofMembers [binding])),
          ("in", wire body)]
  | lambda parameters body =>
      Json.ofMembers
        [("lambda", parametersWire parameters), ("expr", wire body)]
  | select path source =>
      Json.ofMembers [("select", wire path), ("from", wire source)]
  | selectOr path source fallback =>
      Json.ofMembers
        [("select", wire path), ("from", wire source), ("default", wire fallback)]
  | containsPath path source =>
      Json.ofMembers [("contains_path", wire path), ("in", wire source)]
  | ifThenElse condition consequence alternative =>
      Json.ofMembers
        [("if", wire condition), ("then", wire consequence),
          ("else", wire alternative)]
  | get reference => Json.ofMembers [("get", wire reference)]
  | ref home id =>
      Json.ofMembers [("ref", wire home), ("id", wire id)]
  | collection name => Json.ofMembers [("collection", .string name)]
  | index name => Json.ofMembers [("index", .string name)]
  | documents home => Json.ofMembers [("documents", wire home)]
  | matching indexed terms =>
      Json.ofMembers [("match", wire indexed), ("terms", wire terms)]
  | paginate set size =>
      Json.ofMembers (("paginate", wire set) :: sizeWire size)
  | map source function =>
      Json.ofMembers [("map", wire function), ("collection", wire source)]
  | count source => Json.ofMembers [("count", wire source)]
  | subtract operands => Json.ofMembers [("subtract", .array (wires operands))]
  | create home params =>
      Json.ofMembers [("create", wire home), ("params", wire params)]
  | update reference params =>
      Json.ofMembers [("update", wire reference), ("params", wire params)]
  | delete reference => Json.ofMembers [("delete", wire reference)]
  | createCollection definition =>
      Json.ofMembers [("create_collection", definition.wire)]
  | createIndex definition => Json.ofMembers [("create_index", definition.wire)]
  | batch statements => Json.ofMembers [("do", .array (wires statements))]

def wires : List Expr -> List Json
  | [] => []
  | expr :: rest => wire expr :: wires rest

def entryWires : List (String × Expr) -> List (String × Json)
  | [] => []
  | (key, expr) :: rest => (key, wire expr) :: entryWires rest

end

def text (expr : Expr) : String :=
  expr.wire.text

end Expr
end DocumentMapper
