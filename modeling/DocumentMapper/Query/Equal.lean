import DocumentMapper.Query.Expr
import DocumentMapper.Value.Equal

/-!
# Equality of expressions

Two expressions are equal when they are built alike from equal values.  The order
of entries counts in an object expression, though it does not in a literal
document.
-/

namespace DocumentMapper
namespace Expr

mutual

def equal : Expr -> Expr -> Bool
  | literal a, literal b => a == b
  | array as, array bs => equalItems as bs
  | object as, object bs => equalEntries as bs
  | var a, var b => a == b
  | letIn as a, letIn bs b => equalEntries as bs && equal a b
  | lambda ps a, lambda qs b => ps == qs && equal a b
  | select p a, select q b => equal p q && equal a b
  | selectOr p a c, selectOr q b d => equal p q && equal a b && equal c d
  | containsPath p a, containsPath q b => equal p q && equal a b
  | ifThenElse c t e, ifThenElse d u f => equal c d && equal t u && equal e f
  | get a, get b => equal a b
  | ref c i, ref d j => equal c d && equal i j
  | collection a, collection b => a == b
  | index a, index b => a == b
  | documents a, documents b => equal a b
  | matching i t, matching j u => equal i j && equal t u
  | paginate a m, paginate b n => equal a b && m == n
  | map a f, map b g => equal a b && equal f g
  | count a, count b => equal a b
  | subtract as, subtract bs => equalItems as bs
  | create c p, create d q => equal c d && equal p q
  | update r p, update s q => equal r s && equal p q
  | delete a, delete b => equal a b
  | createCollection c, createCollection d => c == d
  | createIndex i, createIndex j => i == j
  | batch as, batch bs => equalItems as bs
  | _, _ => false

def equalItems : List Expr -> List Expr -> Bool
  | [], [] => true
  | a :: as, b :: bs => equal a b && equalItems as bs
  | _, _ => false

def equalEntries : List (String × Expr) -> List (String × Expr) -> Bool
  | [], [] => true
  | (k, a) :: as, (j, b) :: bs => k == j && equal a b && equalEntries as bs
  | _, _ => false

end

instance : BEq Expr where
  beq := Expr.equal

end Expr
end DocumentMapper
