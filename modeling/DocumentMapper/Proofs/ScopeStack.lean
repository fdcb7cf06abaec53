import DocumentMapper.Query.Evaluate

/-!
# One stack of bindings

Evaluation passes the scope down, so what a binding is worth ends with the expression
that binds it.  A machine that keeps one stack of bindings has to see to this itself:
it pushes a binding where a variable is bound and cuts the stack back to its old height
where that ends, with an answer or with an error.

The machine also notes the parameters of lambdas that find no item in the array that is
taken apart for them.  It never looks at the notes.
-/

namespace DocumentMapper

structure Machine where
  store : Store
  /-- The bindings, innermost first. -/
  stack : Scope
  /-- The parameters that have been left without an item. -/
  unbound : List String

def Machine.cutTo (height : Nat) (machine : Machine) : Machine :=
  { machine with stack := machine.stack.drop (machine.stack.length - height) }

/-- A step of the machine, which answers or fails and leaves a machine either way. -/
abbrev Run := EStateM Error Machine

namespace Run

variable {item : Type}

def onStore (action : Action item) : Run item := fun machine =>
  match action machine.store with
  | .ok a left => .ok a { machine with store := left }
  | .error error left => .error error { machine with store := left }

def push (name : String) (value : Value) : Run Unit :=
  modify fun machine => { machine with stack := (name, value) :: machine.stack }

def pushAll (bindings : List (String × Value)) : Run Unit :=
  bindings.forM fun binding => push binding.1 binding.2

def note (names : List String) : Run Unit :=
  modify fun machine => { machine with unbound := machine.unbound ++ names }

/-- Cuts the stack back to its height before the run, however that ends. -/
def restoring (run : Run item) : Run item := fun machine =>
  match run machine with
  | .ok a left => .ok a (left.cutTo machine.stack.length)
  | .error error left => .error error (left.cutTo machine.stack.length)

def lookUp (name : String) : Run Value := do
  let machine <- get
  onStore (Expr.demand (Keyed.get? machine.stack name)
    (.invalidExpression (.unboundVariable name)))

/-- Pushes the parameters of a lambda.  Several parameters take the first items of an
array, and those that are left without one are noted. -/
def pushParameters (parameters : List String) (argument : Value) : Run Unit :=
  match parameters, argument with
  | [parameter], _ => push parameter argument
  | _, .array items => do
      pushAll (parameters.zip items)
      note (parameters.filter fun name => name ∉ Keyed.keys (parameters.zip items))
  | _, _ => onStore (Expr.fail (.cannotDestructure argument parameters.length))

end Run

namespace Expr

open Run

mutual

def run (clock : Clock) : Expr -> Run Value
  | literal value => pure value
  | array items => do
      let values <- runAll clock items
      pure (.array values)
  | object entries => do
      let written <- runEntries clock entries []
      pure (.document written)
  | var name => lookUp name
  | letIn bindings body =>
      restoring (do
        runBindings clock bindings
        run clock body)
  | lambda _ _ => onStore (fail .loneLambda)
  | select path source => do
      let steps <- onStore (asPath (<- run clock path))
      let value <- run clock source
      onStore (demand (value.at? steps) (.invalidExpression (.nothingAt steps)))
  | selectOr path source fallback => do
      let steps <- onStore (asPath (<- run clock path))
      let value <- run clock source
      match value.at? steps with
      | some found => pure found
      | none => run clock fallback
  | containsPath path source => do
      let steps <- onStore (asPath (<- run clock path))
      let value <- run clock source
      pure (.bool (value.at? steps).isSome)
  | ifThenElse condition consequence alternative => do
      match (<- run clock condition) with
      | .bool true => run clock consequence
      | .bool false => run clock alternative
      | other => onStore (fail (.notACondition other))
  | get reference => do
      let target <- onStore (asReference (<- run clock reference))
      let store <- onStore (getThe Store)
      let document <- onStore (demand (store.find? target) .instanceNotFound)
      pure (.document document)
  | ref home id => do
      let name <- onStore (asCollection (<- run clock home))
      let named <- onStore (asId (<- run clock id))
      pure (Reference.toValue { collection := name, id := named })
  | collection name => pure (Reference.ofCollection name).toValue
  | index name => pure (Reference.ofIndex name).toValue
  | documents _ => onStore (fail .loneSet)
  | matching _ _ => onStore (fail .loneSet)
  | paginate set size => do
      let entries <- runSet clock set
      pure (page (entries.take (size.getD pageSize)))
  | map source function => do
      let source <- onStore (asItems (<- run clock source))
      let mapped <- source.items.mapM fun item => runApply clock function item
      pure { source with items := mapped : Items }.toValue
  | count source => do
      let source <- onStore (asItems (<- run clock source))
      pure (.int .long source.items.length)
  | subtract operands => do
      let values <- runAll clock operands
      onStore (difference values)
  | create home params => do
      let name <- onStore (asCollection (<- run clock home))
      let data <- onStore (asData (<- run clock params))
      let document <- onStore (Store.createDocument clock name data)
      pure (.document document)
  | update reference params => do
      let target <- onStore (asReference (<- run clock reference))
      let patch <- onStore (asData (<- run clock params))
      let document <- onStore (Store.updateDocument clock target patch)
      pure (.document document)
  | delete reference => do
      let target <- onStore (asReference (<- run clock reference))
      let document <- onStore (Store.delete target)
      pure (.document document)
  | createCollection definition => do
      let document <- onStore (Store.createCollection clock definition)
      pure (.document document)
  | createIndex definition => do
      let document <- onStore (Store.createIndex clock definition)
      pure (.document document)
  | batch statements => runBatch clock statements .null

def runApply (clock : Clock) : Expr -> Value -> Run Value
  | lambda parameters body, argument =>
      restoring (do
        pushParameters parameters argument
        run clock body)
  | _, _ => onStore (fail .notALambda)

def runSet (clock : Clock) : Expr -> Run (List Value)
  | documents home => do
      let name <- onStore (asCollection (<- run clock home))
      let store <- onStore (getThe Store)
      onStore (demand (store.references? name) .instanceNotFound)
  | matching indexed terms => do
      let name <- onStore (asIndex (<- run clock indexed))
      let wanted <- run clock terms
      let store <- onStore (getThe Store)
      onStore (demand (store.matching? name (termsOf wanted)) (store.matchingError name))
  | other => onStore (fail (.notASet other))

def runAll (clock : Clock) : List Expr -> Run (List Value)
  | [] => pure []
  | expr :: rest => do
      let value <- run clock expr
      let values <- runAll clock rest
      pure (value :: values)

def runEntries (clock : Clock) : List (String × Expr) -> Document -> Run Document
  | [], written => pure written
  | (key, expr) :: rest, written => do
      let value <- run clock expr
      runEntries clock rest (Keyed.insert written key value)

def runBindings (clock : Clock) : List (String × Expr) -> Run Unit
  | [] => pure ()
  | (name, expr) :: rest => do
      let value <- run clock expr
      push name value
      runBindings clock rest

def runBatch (clock : Clock) : List Expr -> Value -> Run Value
  | [], last => pure last
  | expr :: rest, _ => do
      let value <- run clock expr
      runBatch clock rest value

end

/-- The parameters that an evaluation leaves without an item. -/
def unboundIn (clock : Clock) (expr : Expr) (scope : Scope) (store : Store) :
    List String :=
  match expr.run clock { store := store, stack := scope, unbound := [] } with
  | .ok _ left => left.unbound
  | .error _ left => left.unbound

/-!
## Variables
-/

mutual

def free : Expr -> List String
  | literal _ => []
  | array items => freeOfAll items
  | object entries => freeOfEntries entries
  | var name => [name]
  | letIn bindings body => freeOfLet bindings (free body)
  | lambda parameters body => (free body).filter fun name => name ∉ parameters
  | select path source => free path ++ free source
  | selectOr path source fallback => free path ++ (free source ++ free fallback)
  | containsPath path source => free path ++ free source
  | ifThenElse condition consequence alternative =>
      free condition ++ (free consequence ++ free alternative)
  | get reference => free reference
  | ref home id => free home ++ free id
  | collection _ => []
  | index _ => []
  | documents home => free home
  | matching indexed terms => free indexed ++ free terms
  | paginate set _ => free set
  | map source function => free source ++ free function
  | count source => free source
  | subtract operands => freeOfAll operands
  | create home params => free home ++ free params
  | update reference params => free reference ++ free params
  | delete reference => free reference
  | createCollection _ => []
  | createIndex _ => []
  | batch statements => freeOfAll statements

def freeOfAll : List Expr -> List String
  | [] => []
  | expr :: rest => free expr ++ freeOfAll rest

def freeOfEntries : List (String × Expr) -> List String
  | [] => []
  | (_, expr) :: rest => free expr ++ freeOfEntries rest

/-- Each binding binds its name in the bindings after it and in the body, whose own free
variables are given. -/
def freeOfLet : List (String × Expr) -> List String -> List String
  | [], ofBody => ofBody
  | (name, expr) :: rest, ofBody =>
      free expr ++ (freeOfLet rest ofBody).filter fun used => used ≠ name

end

/-- The parameters that may be left without an item when the expression is applied: all
of a lambda that has other than one. -/
def looseParameters : Expr -> List String
  | lambda [_] _ => []
  | lambda parameters _ => parameters
  | _ => []

end Expr
end DocumentMapper
