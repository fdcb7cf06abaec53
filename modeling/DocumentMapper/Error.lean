import DocumentMapper.Query.Wire
import DocumentMapper.Schema.Issue
import DocumentMapper.Value.Path

/-!
# Errors

Every way in which building or running a query fails.  Each kind of error lists
its causes; the wording of a cause is given beside it.  A client that speaks for
a database elsewhere may also report an error of a kind in words of its own.
-/

namespace DocumentMapper

/-!
## Evaluation
-/

namespace Step

def text : Step -> String
  | key name => "Key(" ++ Text.keyQuoted name ++ ")"
  | position index => "Position(" ++ toString index ++ ")"

end Step

/-- Why an expression cannot be evaluated. -/
inductive EvaluationFault where
  | unboundVariable (name : String)
  /-- A lambda stands where a value is wanted. -/
  | loneLambda
  /-- A set stands where a value is wanted. -/
  | loneSet
  | notALambda
  | notASet (found : Expr)
  | invalidStep (found : Value)
  | nothingAt (path : List Step)
  | notACondition (found : Value)
  | notAReference (found : Value)
  | notACollection (found : Reference)
  | notAnIndex (found : Reference)
  | notAnObject (found : Value)
  /-- A document that holds no items. -/
  | notAPage
  | notItems (found : Value)
  | invalidId (found : Value)
  | cannotDestructure (found : Value) (parameters : Nat)
  | noOperands
  | notNumbers
  | reported (words : String)

namespace EvaluationFault

def message : EvaluationFault -> String
  | unboundVariable name => "unbound variable " ++ name
  | loneLambda => "a lambda can only be applied by Map"
  | loneSet => "a set can only be read through Paginate"
  | notALambda => "Map expects a lambda"
  | notASet found => "expected a set, received " ++ found.text
  | invalidStep found => "invalid path segment " ++ found.text
  | nothingAt path =>
      "value not found at [" ++ ", ".intercalate (path.map Step.text) ++ "]"
  | notACondition found =>
      "expected a boolean condition, received " ++ found.text
  | notAReference found => "expected a reference, received " ++ found.text
  | notACollection found => "expected a collection, received " ++ found.text
  | notAnIndex found => "expected an index, received " ++ found.text
  | notAnObject found => "expected an object, received " ++ found.text
  | notAPage => "expected an array or a page"
  | notItems found => "expected an array or a page, received " ++ found.text
  | invalidId found => "invalid document id " ++ found.text
  | cannotDestructure found parameters =>
      "cannot destructure " ++ found.text ++ " into " ++ toString parameters ++
        " parameters"
  | noOperands => "Subtract needs at least one operand"
  | notNumbers => "Subtract expects numbers"
  | reported words => words

end EvaluationFault

/-!
## Models and managers
-/

/-- How a model is declared or used in a way it does not allow. -/
inductive Misuse where
  /-- A field has a name that every instance carries for itself. -/
  | reservedField (model field : String)
  | noField (model field : String)
  | noReverse (field : String)
  | notARelationship (field : String)
  | notUnique (field : String)
  | isUnique (field : String)
  | notIndexed (field : String)
  | notManyToMany (field : String)
  | reported (words : String)

namespace Misuse

def message : Misuse -> String
  | reservedField model field =>
      "Model " ++ model ++ " cannot declare the reserved field " ++ field
  | noField model field => "Model " ++ model ++ " has no field " ++ field
  | noReverse field => "Field " ++ field ++ " does not have a reverse"
  | notARelationship field => "Field " ++ field ++ " is not a relationship"
  | notUnique field => "Field " ++ field ++ " is not unique"
  | isUnique field => "Field " ++ field ++ " is unique, use get_by"
  | notIndexed field => "Field " ++ field ++ " is not indexed"
  | notManyToMany field =>
      "Field " ++ field ++ " is not a many-to-many relationship"
  | reported words => words

end Misuse

/-- Why what a database answered is not an instance. -/
inductive Misfit where
  | notAnInstance (found : Value)
  | notInstances (found : Value)
  /-- What was created does not say where it is. -/
  | noReference (found : Value)
  /-- An instance does not fit the type it is read into. -/
  | otherShape
  | reported (words : String)

namespace Misfit

def message : Misfit -> String
  | notAnInstance found => "expected an instance, received " ++ found.text
  | notInstances found =>
      "expected a list of instances, received " ++ found.text
  | noReference found => "create returned no reference: " ++ found.text
  | otherShape => "the instance has another shape"
  | reported words => words

end Misfit

/-!
## Settings
-/

def secretVariable : String :=
  "FAUNADB_SECRET_KEY"

def endpointVariable : String :=
  "FAUNADB_ENDPOINT"

inductive SettingsFault where
  | noSecret
  | noSettings
  | reported (words : String)

namespace SettingsFault

def message : SettingsFault -> String
  | noSecret =>
      "a database secret is required (set " ++ secretVariable ++ ")"
  | noSettings => "the in-memory client requires a configuration"
  | reported words => words

end SettingsFault

/-!
## All errors
-/

inductive Error where
  | configuration (fault : SettingsFault)
  | validation (issues : List Issue)
  | misuse (cause : Misuse)
  | instanceNotFound
  | instanceNotUnique
  | instanceAlreadyExists
  | invalidExpression (fault : EvaluationFault)
  | serialization (misfit : Misfit)
  /-- Any other failure that a client reports. -/
  | client (words : String)
  /-- A sort gave up, and the run stopped there without an answer. -/
  | stopped

namespace Error

def message : Error -> String
  | configuration fault => "Configuration error: " ++ fault.message
  | validation issues =>
      "validation failed: " ++ "; ".intercalate (issues.map Issue.text)
  | misuse cause => "Misuse: " ++ cause.message
  | instanceNotFound => "instance not found"
  | instanceNotUnique => "instance not unique"
  | instanceAlreadyExists => "instance already exists"
  | invalidExpression fault => "Invalid expression: " ++ fault.message
  | serialization misfit => "Serialization error: " ++ misfit.message
  | client words => "Client error: " ++ words
  | stopped =>
      "user-provided comparison function does not correctly implement a total order"

end Error
end DocumentMapper
