import DocumentMapper.Definition.Basic
import DocumentMapper.Value.Reference

/-!
# Query expressions

What a database is asked to evaluate.  An expression is plain data: composing one
touches no database.

A set, which is the documents of a collection or the matches of an index, has no
value of its own.  It is read page by page.
-/

namespace DocumentMapper

inductive Expr where
  | literal (value : Value)
  | array (items : List Expr)
  /-- Entries in order; the last of equal keys counts. -/
  | object (entries : List (String × Expr))
  | var (name : String)
  /-- Each binding sees the ones before it. -/
  | letIn (bindings : List (String × Expr)) (body : Expr)
  /-- With other than one parameter the argument is an array, taken apart. -/
  | lambda (parameters : List String) (body : Expr)
  /-- The value at a path, which has to be there. -/
  | select (path source : Expr)
  | selectOr (path source fallback : Expr)
  | containsPath (path source : Expr)
  | ifThenElse (condition consequence alternative : Expr)
  /-- The document that a reference names. -/
  | get (reference : Expr)
  | ref (collection id : Expr)
  | collection (name : String)
  | index (name : String)
  /-- The set of all documents of a collection. -/
  | documents (collection : Expr)
  /-- The set of the entries of an index under the given terms. -/
  | matching (index terms : Expr)
  /-- The first entries of a set, as a page. -/
  | paginate (set : Expr) (size : Option Nat)
  /-- Applies a lambda to every item of an array or a page. -/
  | map (source function : Expr)
  | count (source : Expr)
  /-- The first number less all that follow. -/
  | subtract (operands : List Expr)
  | create (collection params : Expr)
  /-- Merges a patch into a document. -/
  | update (reference params : Expr)
  | delete (reference : Expr)
  | createCollection (definition : CollectionDefinition)
  | createIndex (definition : IndexDefinition)
  /-- Evaluates statements in order and yields the value of the last. -/
  | batch (statements : List Expr)
deriving Inhabited

namespace Expr

def null : Expr :=
  literal .null

def path (keys : List String) : Expr :=
  literal (.array (keys.map Value.string))

def string (s : String) : Expr :=
  literal (.string s)

def ofReference (reference : Reference) : Expr :=
  literal reference.toValue

def documentRef (collection id : String) : Expr :=
  ref (.collection collection) (.string id)

end Expr
end DocumentMapper
