import DocumentMapper.Deployment

/-!
# Clients

A client evaluates one expression at a time against a database, whose state it
threads through.  A failure leaves a state too, as the queries before it have
been carried out.
-/

namespace DocumentMapper

/-- A run of queries: it answers or fails, and leaves a state either way. -/
abbrev Session (state : Type) := EStateM Error state

structure Client (state : Type) where
  query : Expr -> Session state Value

namespace Client

variable {state : Type}

def deploy (client : Client state) (deployment : Deployment) :
    Session state Unit := do
  let _ <- client.query deployment.construct
  let _ <- client.query deployment.index
  pure ()

def teardown (client : Client state) (deployment : Deployment) :
    Session state Unit := do
  let _ <- client.query deployment.deconstruct
  pure ()

end Client
end DocumentMapper
