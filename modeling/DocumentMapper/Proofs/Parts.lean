import DocumentMapper.Query.Expr

/-!
# Parts of expressions

An expression together with all that stands inside it, at every depth.  Which names
an expression uses, and whether it writes, is said of its parts.
-/

namespace DocumentMapper
namespace Expr

mutual

/-- The expression itself and the parts of what it is made of. -/
def parts : Expr -> List Expr
  | literal value => [literal value]
  | array items => array items :: partsOfAll items
  | object entries => object entries :: partsOfEntries entries
  | var name => [var name]
  | letIn bindings body =>
      letIn bindings body :: (partsOfEntries bindings ++ parts body)
  | lambda parameters body => lambda parameters body :: parts body
  | select path source => select path source :: (parts path ++ parts source)
  | selectOr path source fallback =>
      selectOr path source fallback ::
        (parts path ++ (parts source ++ parts fallback))
  | containsPath path source =>
      containsPath path source :: (parts path ++ parts source)
  | ifThenElse condition consequence alternative =>
      ifThenElse condition consequence alternative ::
        (parts condition ++ (parts consequence ++ parts alternative))
  | get reference => get reference :: parts reference
  | ref home id => ref home id :: (parts home ++ parts id)
  | collection name => [collection name]
  | index name => [index name]
  | documents home => documents home :: parts home
  | matching indexed terms =>
      matching indexed terms :: (parts indexed ++ parts terms)
  | paginate set size => paginate set size :: parts set
  | map source function => map source function :: (parts source ++ parts function)
  | count source => count source :: parts source
  | subtract operands => subtract operands :: partsOfAll operands
  | create home params => create home params :: (parts home ++ parts params)
  | update reference params =>
      update reference params :: (parts reference ++ parts params)
  | delete reference => delete reference :: parts reference
  | createCollection definition => [createCollection definition]
  | createIndex definition => [createIndex definition]
  | batch statements => batch statements :: partsOfAll statements

def partsOfAll : List Expr -> List Expr
  | [] => []
  | expr :: rest => parts expr ++ partsOfAll rest

def partsOfEntries : List (String × Expr) -> List Expr
  | [] => []
  | (_, expr) :: rest => parts expr ++ partsOfEntries rest

end

theorem partsOfAll_eq_flatMap (exprs : List Expr) :
    partsOfAll exprs = exprs.flatMap parts := by
  induction exprs with
  | nil => rfl
  | cons expr rest ih => rw [partsOfAll, ih, List.flatMap_cons]

theorem mem_parts_self (expr : Expr) : expr ∈ expr.parts := by
  cases expr <;> simp [parts]

/-!
## Writes
-/

/-- The expression asks for one of the five writes. -/
def isWrite : Expr -> Bool
  | create _ _ => true
  | update _ _ => true
  | delete _ => true
  | createCollection _ => true
  | createIndex _ => true
  | _ => false

def ReadsOnly (expr : Expr) : Prop :=
  forall part, part ∈ expr.parts -> part.isWrite = false

end Expr
end DocumentMapper
