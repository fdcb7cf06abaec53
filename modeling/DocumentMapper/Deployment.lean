import DocumentMapper.Model.Storage

/-!
# Deployments

The models of a database, deployed together.  Their collections are created
first and their indexes second, as an index needs the collection it reads, and
they are torn down from the last model to the first.
-/

namespace DocumentMapper

structure Deployment where
  models : List Model

namespace Deployment

def construct (deployment : Deployment) : Expr :=
  .batch (deployment.models.map Model.construct)

def index (deployment : Deployment) : Expr :=
  .batch (deployment.models.map Model.index)

def deconstruct (deployment : Deployment) : Expr :=
  .batch (deployment.models.reverse.map Model.deconstruct)

end Deployment
end DocumentMapper
