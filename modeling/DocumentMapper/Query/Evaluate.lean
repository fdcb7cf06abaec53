import DocumentMapper.Store.Write

/-!
# Evaluating expressions

Evaluation walks an expression with a scope, which lists the variables that are
bound, innermost first.  The scope is passed down and never changed, so what a
binding is worth ends with the expression that binds it; the store is threaded
through in the order of evaluation.
-/

namespace DocumentMapper

abbrev Scope := List (String × Value)

namespace Expr

def pageSize : Nat :=
  64

/-!
## Reading values as what an operator wants
-/

def fail {item : Type} (fault : EvaluationFault) : Action item :=
  throw (.invalidExpression fault)

def demand {item : Type} (found : Option item) (error : Error) : Action item :=
  match found with
  | some a => pure a
  | none => throw error

def asReference (value : Value) : Action Reference :=
  demand (Reference.ofValue? value) (.invalidExpression (.notAReference value))

def asCollection (value : Value) : Action String := do
  let reference <- asReference value
  if reference.collection = Reference.collections then
    pure reference.id
  else
    fail (.notACollection reference)

def asIndex (value : Value) : Action String := do
  let reference <- asReference value
  if reference.collection = Reference.indexes then
    pure reference.id
  else
    fail (.notAnIndex reference)

/-- A null stands for an empty document. -/
def asDocument : Value -> Action Document
  | .document entries => pure entries
  | .null => pure []
  | other => fail (.notAnObject other)

def asData (params : Value) : Action Document := do
  let entries <- asDocument params
  match Keyed.get? entries "data" with
  | some data => asDocument data
  | none => pure []

def asId : Value -> Action String
  | .string id => pure id
  | .int _ n => pure (toString n)
  | other => fail (.invalidId other)

def asStep : Value -> Action Step
  | .string name => pure (.key name)
  | .int width n =>
      if n < 0 then fail (.invalidStep (.int width n)) else pure (.position n.toNat)
  | other => fail (.invalidStep other)

/-- A path is an array of steps, or a single step. -/
def asPath : Value -> Action (List Step)
  | .array items => items.mapM asStep
  | single => do
      let step <- asStep single
      pure [step]

/-!
## Arrays and pages
-/

def page (items : List Value) : Value :=
  .document [("data", .array items)]

/-- Items, and whether they came as a page. -/
structure Items where
  items : List Value
  paged : Bool

def Items.toValue (source : Items) : Value :=
  if source.paged then page source.items else .array source.items

def asItems : Value -> Action Items
  | .array items => pure { items := items, paged := false }
  | .document entries =>
      match Keyed.get? entries "data" with
      | some (.array items) => pure { items := items, paged := true }
      | _ => fail .notAPage
  | other => fail (.notItems other)

/-- The terms of a lookup: an array of them, or a single one. -/
def termsOf : Value -> List Value
  | .array terms => terms
  | single => [single]

/-!
## Differences

Integers stay exact among themselves; one double makes doubles of all.  The integers
have no bound here.  A server counts in 64 bits, and what it does with a difference
that does not fit is not described: it may stop or go round.
-/

def difference (operands : List Value) : Action Value :=
  match operands.mapM Value.integer?, operands.mapM Value.double? with
  | some (first :: rest), _ => pure (.int .long (rest.foldl (· - ·) first))
  | none, some (first :: rest) => pure (.double (rest.foldl (· - ·) first))
  | some [], _ => fail .noOperands
  | _, _ => fail .notNumbers

/-!
## Application
-/

/-- The scope of a lambda's body.  Several parameters take the first items of an
array, the later ones standing further in. -/
def bindParameters (parameters : List String) (argument : Value) (scope : Scope) :
    Action Scope :=
  match parameters, argument with
  | [parameter], _ => pure ((parameter, argument) :: scope)
  | _, .array items => pure ((parameters.zip items).reverse ++ scope)
  | _, _ => fail (.cannotDestructure argument parameters.length)

/-!
## Evaluation
-/

mutual

def evaluate (clock : Clock) : Expr -> Scope -> Action Value
  | literal value, _ => pure value
  | array items, scope => do
      let values <- evaluateAll clock items scope
      pure (.array values)
  | object entries, scope => do
      let written <- evaluateEntries clock entries [] scope
      pure (.document written)
  | var name, scope =>
      demand (Keyed.get? scope name) (.invalidExpression (.unboundVariable name))
  | letIn bindings body, scope => do
      let extended <- evaluateBindings clock bindings scope
      evaluate clock body extended
  | lambda _ _, _ => fail .loneLambda
  | select path source, scope => do
      let steps <- asPath (<- evaluate clock path scope)
      let value <- evaluate clock source scope
      demand (value.at? steps) (.invalidExpression (.nothingAt steps))
  | selectOr path source fallback, scope => do
      let steps <- asPath (<- evaluate clock path scope)
      let value <- evaluate clock source scope
      match value.at? steps with
      | some found => pure found
      | none => evaluate clock fallback scope
  | containsPath path source, scope => do
      let steps <- asPath (<- evaluate clock path scope)
      let value <- evaluate clock source scope
      pure (.bool (value.at? steps).isSome)
  | ifThenElse condition consequence alternative, scope => do
      match (<- evaluate clock condition scope) with
      | .bool true => evaluate clock consequence scope
      | .bool false => evaluate clock alternative scope
      | other => fail (.notACondition other)
  | get reference, scope => do
      let target <- asReference (<- evaluate clock reference scope)
      let store <- getThe Store
      let document <- demand (store.find? target) .instanceNotFound
      pure (.document document)
  | ref home id, scope => do
      let name <- asCollection (<- evaluate clock home scope)
      let named <- asId (<- evaluate clock id scope)
      pure (Reference.toValue { collection := name, id := named })
  | collection name, _ => pure (Reference.ofCollection name).toValue
  | index name, _ => pure (Reference.ofIndex name).toValue
  | documents _, _ => fail .loneSet
  | matching _ _, _ => fail .loneSet
  | paginate set size, scope => do
      let entries <- evaluateSet clock set scope
      pure (page (entries.take (size.getD pageSize)))
  | map source function, scope => do
      let source <- asItems (<- evaluate clock source scope)
      let mapped <- source.items.mapM fun item => apply clock function item scope
      pure { source with items := mapped : Items }.toValue
  | count source, scope => do
      let source <- asItems (<- evaluate clock source scope)
      pure (.int .long source.items.length)
  | subtract operands, scope => do
      let values <- evaluateAll clock operands scope
      difference values
  | create home params, scope => do
      let name <- asCollection (<- evaluate clock home scope)
      let data <- asData (<- evaluate clock params scope)
      let document <- Store.createDocument clock name data
      pure (.document document)
  | update reference params, scope => do
      let target <- asReference (<- evaluate clock reference scope)
      let patch <- asData (<- evaluate clock params scope)
      let document <- Store.updateDocument clock target patch
      pure (.document document)
  | delete reference, scope => do
      let target <- asReference (<- evaluate clock reference scope)
      let document <- Store.delete target
      pure (.document document)
  | createCollection definition, _ => do
      let document <- Store.createCollection clock definition
      pure (.document document)
  | createIndex definition, _ => do
      let document <- Store.createIndex clock definition
      pure (.document document)
  | batch statements, scope => evaluateBatch clock statements .null scope

def apply (clock : Clock) : Expr -> Value -> Scope -> Action Value
  | lambda parameters body, argument, scope => do
      let extended <- bindParameters parameters argument scope
      evaluate clock body extended
  | _, _, _ => fail .notALambda

def evaluateSet (clock : Clock) : Expr -> Scope -> Action (List Value)
  | documents home, scope => do
      let name <- asCollection (<- evaluate clock home scope)
      let store <- getThe Store
      demand (store.references? name) .instanceNotFound
  | matching indexed terms, scope => do
      let name <- asIndex (<- evaluate clock indexed scope)
      let wanted <- evaluate clock terms scope
      let store <- getThe Store
      demand (store.matching? name (termsOf wanted)) (store.matchingError name)
  | other, _ => fail (.notASet other)

def evaluateAll (clock : Clock) : List Expr -> Scope -> Action (List Value)
  | [], _ => pure []
  | expr :: rest, scope => do
      let value <- evaluate clock expr scope
      let values <- evaluateAll clock rest scope
      pure (value :: values)

def evaluateEntries (clock : Clock) :
    List (String × Expr) -> Document -> Scope -> Action Document
  | [], written, _ => pure written
  | (key, expr) :: rest, written, scope => do
      let value <- evaluate clock expr scope
      evaluateEntries clock rest (Keyed.insert written key value) scope

def evaluateBindings (clock : Clock) :
    List (String × Expr) -> Scope -> Action Scope
  | [], scope => pure scope
  | (name, expr) :: rest, scope => do
      let value <- evaluate clock expr scope
      evaluateBindings clock rest ((name, value) :: scope)

def evaluateBatch (clock : Clock) : List Expr -> Value -> Scope -> Action Value
  | [], last, _ => pure last
  | expr :: rest, _, scope => do
      let value <- evaluate clock expr scope
      evaluateBatch clock rest value scope

end

end Expr
end DocumentMapper
