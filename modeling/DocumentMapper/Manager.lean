import DocumentMapper.Client.Basic
import DocumentMapper.Model.Request

/-!
# Managers

A manager binds a model to a client: it sends the requests of the model and
parses what comes back by the schema that the model is read with.

A request that is refused is not sent.  Creating and updating send a second query
to read the instance back, which can fail after the first has been carried out.
-/

namespace DocumentMapper

structure Manager (state : Type) where
  model : Model
  client : Client state

class OfInstance (record : Type) where
  ofInstance? : Document -> Option record

def readRecord {record : Type} [OfInstance record] (entries : Document) :
    Except Error record :=
  match OfInstance.ofInstance? entries with
  | some found => .ok found
  | none => .error (.serialization .otherShape)

namespace Model

def expectInstance : Value -> Except Error Document
  | .document entries => .ok entries
  | other => .error (.serialization (.notAnInstance other))

def parseInstance (model : Model) (raw : Value) : Except Error Document := do
  let parsed <- (model.readSchema.parse raw).mapError .validation
  expectInstance parsed

def parseInstances (model : Model) (raw : Value) :
    Except Error (List Document) := do
  match (<- (model.readSchema.list.parse raw).mapError .validation) with
  | .array items => items.mapM expectInstance
  | other => throw (.serialization (.notInstances other))

end Model

def createdReference (created : Value) : Except Error Reference :=
  match created.document?.bind fun entries =>
      (Keyed.get? entries "ref").bind Reference.ofValue? with
  | some reference => .ok reference
  | none => .error (.serialization (.noReference created))

namespace Manager

variable {state : Type}

def settle {item : Type} : Except Error item -> Session state item
  | .ok a => pure a
  | .error error => throw error

/-!
## Reading
-/

def readOne (manager : Manager state) (request : Expr) :
    Session state Document := do
  let raw <- manager.client.query request
  settle (manager.model.parseInstance raw)

def readAll (manager : Manager state) (request : Expr) :
    Session state (List Document) := do
  let raw <- manager.client.query request
  settle (manager.model.parseInstances raw)

def get (manager : Manager state) (id : String) : Session state Document :=
  manager.readOne (manager.model.getRequest id)

def dereference (manager : Manager state) (reference : Reference) :
    Session state Document :=
  manager.readOne (manager.model.dereference (.ofReference reference))

/-- Lists all instances, or those that an index has under the given terms. -/
def paginate (manager : Manager state) (index : Option String)
    (terms : List Value) : Session state (List Document) :=
  manager.readAll (manager.model.paginate index (terms.map Expr.literal))

/-- The instance whose unique field holds a term, the first if there are more. -/
def getBy (manager : Manager state) (field : String) (term : Value) :
    Session state (Option Document) := do
  let request <-
    settle ((manager.model.getByRequest field term).mapError .misuse)
  let found <- manager.readAll request
  pure found.head?

def paginateBy (manager : Manager state) (field : String) (term : Value) :
    Session state (List Document) := do
  let request <-
    settle ((manager.model.paginateByRequest field term).mapError .misuse)
  manager.readAll request

/-!
## Writing
-/

/-- Creates an instance and reads it back. -/
def create (manager : Manager state) (data : Document) :
    Session state Document := do
  let request <-
    settle ((manager.model.createRequest data).mapError .validation)
  let created <- manager.client.query request
  let reference <- settle (createdReference created)
  manager.dereference reference

def update (manager : Manager state) (id : String) (data : Document) :
    Session state Document := do
  let request <-
    settle ((manager.model.updateRequest id data).mapError .validation)
  let _ <- manager.client.query request
  manager.get id

def delete (manager : Manager state) (id : String) : Session state Unit := do
  let _ <- manager.client.query (manager.model.deleteRequest id)
  pure ()

def link (manager : Manager state) (id field related : String) :
    Session state Unit := do
  let request <-
    settle ((manager.model.linkRequest id field related).mapError .misuse)
  let _ <- manager.client.query request
  pure ()

/-!
## Records
-/

variable {record : Type} [OfInstance record]

def getAs (manager : Manager state) (id : String) : Session state record := do
  let found <- manager.get id
  settle (readRecord found)

def paginateAs (manager : Manager state) (index : Option String)
    (terms : List Value) : Session state (List record) := do
  let found <- manager.paginate index terms
  settle (found.mapM readRecord)

end Manager
end DocumentMapper
