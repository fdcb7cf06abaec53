import DocumentMapper.Proofs.KeyOrder
import DocumentMapper.Proofs.Parts
import DocumentMapper.Query.Wire

/-!
# Same requests

Expressions that are built differently may ask for the same thing.  A literal array or
document says what an array or an object of literals says, of the entries of an object
with equal keys only the last counts, and the width of an integer is not sent.

Every expression has one request, in which nothing of this is left open.  Two
expressions are the same request when their requests are equal, and an expression is
sent in the wire form of its request.
-/

namespace DocumentMapper

/-!
## Requests
-/

namespace Value

mutual

/-- The request that a literal is: a reference is sent as it is, and other documents
and all arrays are taken apart. -/
def request : Value -> Expr
  | int _ n => .literal (.int .long n)
  | array items => .array (itemRequests items)
  | document entries =>
      if Reference.isReference (document entries) then
        .literal (document entries)
      else
        .object (Ordered.ofList (entryRequests entries))
  | other => .literal other

def itemRequests : List Value -> List Expr
  | [] => []
  | item :: rest => request item :: itemRequests rest

def entryRequests : List (String × Value) -> List (String × Expr)
  | [] => []
  | (key, item) :: rest => (key, request item) :: entryRequests rest

end

end Value

namespace Expr

mutual

def request : Expr -> Expr
  | literal value => value.request
  | array items => array (requests items)
  | object entries => object (Ordered.ofList (entryRequests entries))
  | var name => var name
  | letIn bindings body => letIn (entryRequests bindings) (request body)
  | lambda parameters body => lambda parameters (request body)
  | select path source => select (request path) (request source)
  | selectOr path source fallback =>
      selectOr (request path) (request source) (request fallback)
  | containsPath path source => containsPath (request path) (request source)
  | ifThenElse condition consequence alternative =>
      ifThenElse (request condition) (request consequence) (request alternative)
  | get reference => get (request reference)
  | ref home id => ref (request home) (request id)
  | collection name => collection name
  | index name => index name
  | documents home => documents (request home)
  | matching indexed terms => matching (request indexed) (request terms)
  | paginate set size => paginate (request set) size
  | map source function => map (request source) (request function)
  | count source => count (request source)
  | subtract operands => subtract (requests operands)
  | create home params => create (request home) (request params)
  | update reference params => update (request reference) (request params)
  | delete reference => delete (request reference)
  | createCollection definition => createCollection definition
  | createIndex definition => createIndex definition
  | batch statements => batch (requests statements)

def requests : List Expr -> List Expr
  | [] => []
  | expr :: rest => request expr :: requests rest

def entryRequests : List (String × Expr) -> List (String × Expr)
  | [] => []
  | (key, expr) :: rest => (key, request expr) :: entryRequests rest

end

def SameRequest (a b : Expr) : Prop :=
  a.request = b.request

theorem entryRequests_eq_map (entries : List (String × Expr)) :
    entryRequests entries = entries.map fun entry => (entry.1, entry.2.request) := by
  induction entries with
  | nil =>
      rfl
  | cons entry rest ih =>
      rw [entryRequests, ih, List.map_cons]

theorem entryWires_eq_map (entries : List (String × Expr)) :
    entryWires entries = entries.map fun entry => (entry.1, entry.2.wire) := by
  induction entries with
  | nil =>
      rfl
  | cons entry rest ih =>
      rw [entryWires, ih, List.map_cons]

end Expr

/-!
## The wire form of a request
-/

theorem Json.ofMembers_entryWires (entries : List (String × Expr)) :
    ofMembers (Expr.entryWires (Ordered.ofList entries)) =
      ofMembers (Expr.entryWires entries) := by
  have hwires := Ordered.map_ofList Expr.wire entries
  rw [ofMembers, ofMembers, Expr.entryWires_eq_map, Expr.entryWires_eq_map, hwires,
    Ordered.ofList_of_sorted (Ordered.sorted_ofList _)]

namespace Value

mutual

theorem wire_request : forall value : Value, value.request.wire = value.wire
  | array items => by
      rw [request, Expr.wire, wires_itemRequests items, wire]
  | document entries => by
      rw [request, wire]
      cases hreference : Reference.ofValue? (document entries) with
      | some reference =>
          simp [Reference.isReference, hreference, Expr.wire, wire]
      | none =>
          simp only [Reference.isReference, hreference, Option.isSome_none,
            Bool.false_eq_true, if_false, Expr.wire]
          rw [Json.ofMembers_entryWires, entryWires_entryRequests entries]
  | null | bool _ | int _ _ | double _ | string _ | date _ | objectId _ | binary _
  | timestamp _ _ | code _ | symbol _ | undefined | minKey | maxKey => rfl

theorem wires_itemRequests : forall items : List Value,
    Expr.wires (itemRequests items) = itemWires items
  | [] => rfl
  | item :: rest => by
      rw [itemRequests, Expr.wires, wire_request item, wires_itemRequests rest,
        itemWires]

theorem entryWires_entryRequests : forall entries : List (String × Value),
    Expr.entryWires (entryRequests entries) = entryWires entries
  | [] => rfl
  | (key, item) :: rest => by
      rw [entryRequests, Expr.entryWires, wire_request item,
        entryWires_entryRequests rest, entryWires]

end

end Value

namespace Expr

mutual

/-- An expression is sent in the wire form of its request. -/
theorem wire_request : forall expr : Expr, expr.request.wire = expr.wire
  | literal value => by
      rw [request, Value.wire_request, wire]
  | object entries => by
      rw [request, wire, Json.ofMembers_entryWires, entryWires_entryRequests entries,
        wire]
  | array items => by
      rw [request, wire, wires_requests items, wire]
  | letIn bindings body => by
      rw [request, wire, entryWires_entryRequests bindings, wire_request body, wire]
  | var _ | collection _ | index _ | createCollection _ | createIndex _ => rfl
  | lambda _ body => by
      rw [request, wire, wire_request body, wire]
  | select path source => by
      rw [request, wire, wire_request path, wire_request source, wire]
  | selectOr path source fallback => by
      rw [request, wire, wire_request path, wire_request source,
        wire_request fallback, wire]
  | containsPath path source => by
      rw [request, wire, wire_request path, wire_request source, wire]
  | ifThenElse condition consequence alternative => by
      rw [request, wire, wire_request condition, wire_request consequence,
        wire_request alternative, wire]
  | get reference => by
      rw [request, wire, wire_request reference, wire]
  | ref home id => by
      rw [request, wire, wire_request home, wire_request id, wire]
  | documents home => by
      rw [request, wire, wire_request home, wire]
  | matching indexed terms => by
      rw [request, wire, wire_request indexed, wire_request terms, wire]
  | paginate set _ => by
      rw [request, wire, wire_request set, wire]
  | map source function => by
      rw [request, wire, wire_request source, wire_request function, wire]
  | count source => by
      rw [request, wire, wire_request source, wire]
  | subtract operands => by
      rw [request, wire, wires_requests operands, wire]
  | create home params => by
      rw [request, wire, wire_request home, wire_request params, wire]
  | update reference params => by
      rw [request, wire, wire_request reference, wire_request params, wire]
  | delete reference => by
      rw [request, wire, wire_request reference, wire]
  | batch statements => by
      rw [request, wire, wires_requests statements, wire]

theorem wires_requests : forall exprs : List Expr, wires (requests exprs) = wires exprs
  | [] => rfl
  | expr :: rest => by
      rw [requests, wires, wire_request expr, wires_requests rest, wires]

theorem entryWires_entryRequests : forall entries : List (String × Expr),
    entryWires (entryRequests entries) = entryWires entries
  | [] => rfl
  | (key, expr) :: rest => by
      rw [entryRequests, entryWires, wire_request expr, entryWires_entryRequests rest,
        entryWires]

end

end Expr
end DocumentMapper
