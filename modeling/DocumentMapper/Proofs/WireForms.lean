import DocumentMapper.Proofs.SameRequests

/-!
# Reading wire forms

The wire form of an expression tells which request it is: it can be read back.  So two
expressions that are sent alike are the same request, and no literal is sent as an
operator is.

Reading needs no case for what is not a wire form, and gives anything there.  The
members of an object stand in the order of their names, and the last name of each
operator tells it from the others with as many members.
-/

namespace DocumentMapper
namespace Json

/-!
## Parts without expressions
-/

def asText (json : Json) : String :=
  json.string?.getD ""

def asTexts (json : Json) : List String :=
  json.strings?.getD []

def member (json : Json) (name : String) : Json :=
  match json with
  | object members => (Keyed.get? members name).getD null
  | _ => null

def asParameters : Json -> List String
  | string parameter => [parameter]
  | other => other.asTexts

def asSize : Json -> Nat
  | int n => n.toNat
  | _ => 0

def asReference (json : Json) : Reference :=
  { collection := (json.member "collection").asText
    id := (json.member "id").asText }

def asCollectionDefinition (json : Json) : CollectionDefinition :=
  { name := ((json.member "object").member "name").asText }

def asIndexTerm (json : Json) : IndexTerm :=
  { field := ((json.member "object").member "field").asTexts }

def asIndexValue (json : Json) : IndexValue :=
  { field := ((json.member "object").member "field").asTexts
    reverse := ((json.member "object").member "reverse").bool?.getD false }

def asIndexDefinition (json : Json) : IndexDefinition :=
  let params := json.member "object"
  { name := (params.member "name").asText
    source := ((params.member "source").member "collection").asText
    terms := ((params.member "terms").array?.getD []).map asIndexTerm
    values := ((params.member "values").array?.getD []).map asIndexValue
    unique := (params.member "unique").bool? }

/-!
## Expressions
-/

mutual

def request : Json -> Expr
  | null => .null
  | bool b => .literal (.bool b)
  | int n => .literal (.int .long n)
  | double x => .literal (.double x)
  | string s => .literal (.string s)
  | array items => .array (requests items)
  | object [(name, part)] =>
      match name with
      | "@ref" => .literal part.asReference.toValue
      | "object" => .object (memberRequests part)
      | "var" => .var part.asText
      | "get" => .get (request part)
      | "collection" => .collection part.asText
      | "index" => .index part.asText
      | "documents" => .documents (request part)
      | "paginate" => .paginate (request part) none
      | "count" => .count (request part)
      | "subtract" => .subtract (allRequests part)
      | "delete" => .delete (request part)
      | "create_collection" => .createCollection part.asCollectionDefinition
      | "create_index" => .createIndex part.asIndexDefinition
      | _ => .batch (allRequests part)
  | object [(_, first), (name, second)] =>
      match name with
      | "let" => .letIn (bindingRequests second) (request first)
      | "lambda" => .lambda second.asParameters (request first)
      | "select" => .select (request second) (request first)
      | "in" => .containsPath (request first) (request second)
      | "ref" => .ref (request second) (request first)
      | "terms" => .matching (request first) (request second)
      | "size" => .paginate (request first) (some second.asSize)
      | "map" => .map (request first) (request second)
      | "params" => .create (request first) (request second)
      | _ => .update (request second) (request first)
  | object [(_, first), (_, second), (name, third)] =>
      match name with
      | "select" => .selectOr (request third) (request second) (request first)
      | _ => .ifThenElse (request second) (request third) (request first)
  | object _ => .null

def requests : List Json -> List Expr
  | [] => []
  | item :: rest => request item :: requests rest

def entryRequests : List (String × Json) -> List (String × Expr)
  | [] => []
  | (name, part) :: rest => (name, request part) :: entryRequests rest

def allRequests : Json -> List Expr
  | array items => requests items
  | _ => []

def memberRequests : Json -> List (String × Expr)
  | object members => entryRequests members
  | _ => []

def bindingRequests : Json -> List (String × Expr)
  | array items => bindingsOf items
  | _ => []

def bindingsOf : List Json -> List (String × Expr)
  | object [(name, part)] :: rest => (name, request part) :: bindingsOf rest
  | _ => []

end

theorem request_array (items : List Json) :
    (array items).request = .array (requests items) :=
  rfl

theorem requests_cons (item : Json) (rest : List Json) :
    requests (item :: rest) = item.request :: requests rest :=
  rfl

theorem entryRequests_cons (name : String) (part : Json)
    (rest : List (String × Json)) :
    entryRequests ((name, part) :: rest) = (name, part.request) :: entryRequests rest :=
  rfl

theorem entryRequests_eq_map (members : List (String × Json)) :
    entryRequests members = members.map fun entry => (entry.1, entry.2.request) := by
  induction members with
  | nil =>
      rfl
  | cons entry rest ih =>
      rw [entryRequests_cons, ih, List.map_cons]

theorem bindingsOf_map (members : List (String × Json)) :
    bindingsOf (members.map fun binding => ofMembers [binding]) =
      entryRequests members := by
  induction members with
  | nil =>
      rfl
  | cons binding rest ih =>
      show (binding.1, binding.2.request) :: bindingsOf _ = _
      rw [ih]
      rfl

theorem strings?_strings (items : List String) :
    (strings items).strings? = some items := by
  show (items.map string).mapM string? = some items
  induction items with
  | nil =>
      rfl
  | cons item rest ih =>
      rw [List.map_cons, List.mapM_cons, ih]
      rfl

theorem asTexts_strings (items : List String) : (strings items).asTexts = items := by
  rw [asTexts, strings?_strings]
  rfl

theorem asParameters_parametersWire (parameters : List String) :
    (Expr.parametersWire parameters).asParameters = parameters := by
  unfold Expr.parametersWire
  split
  · rfl
  · exact asTexts_strings parameters

theorem member_ofMembers (members : List (String × Json)) (name : String) :
    (ofMembers members).member name =
      (Keyed.get? (Ordered.ofList members) name).getD null :=
  rfl

theorem asCollectionDefinition_wire (definition : CollectionDefinition) :
    definition.wire.asCollectionDefinition = definition :=
  rfl

theorem asIndexTerm_termWire (term : IndexTerm) :
    (IndexDefinition.termWire term).asIndexTerm = term :=
  congrArg IndexTerm.mk (asTexts_strings term.field)

theorem asIndexValue_valueWire (value : IndexValue) :
    (IndexDefinition.valueWire value).asIndexValue = value := by
  simp [asIndexValue, IndexDefinition.valueWire, member_ofMembers, Ordered.ofList,
    Ordered.get?_insert, asTexts_strings, bool?]

theorem asIndexDefinition_wire (definition : IndexDefinition) :
    definition.wire.asIndexDefinition = definition := by
  rcases definition with ⟨name, source, terms, values, unique⟩
  cases unique <;>
    simp [asIndexDefinition, IndexDefinition.wire, member_ofMembers, Ordered.ofList,
      Ordered.get?_insert, asText, string?, array?, bool?, Function.comp_def,
      asIndexTerm_termWire, asIndexValue_valueWire]

/-!
## Members in the order of their names
-/

section

variable {first second third : String} (a b c : Json)

theorem ofMembers_two (h : first < second) :
    ofMembers [(first, a), (second, b)] = object [(first, a), (second, b)] := by
  have hsorted : Ordered.Sorted [(first, a), (second, b)] :=
    List.pairwise_pair.mpr h
  rw [ofMembers, Ordered.ofList_of_sorted hsorted]

theorem ofMembers_swapped (h : second < first) :
    ofMembers [(first, a), (second, b)] = object [(second, b), (first, a)] := by
  have hlist : Ordered.ofList [(first, a), (second, b)] =
      Ordered.insert [(first, a)] second b := rfl
  rw [ofMembers, hlist, Ordered.insert, if_pos h]

theorem ofMembers_reversed (h : second < first) (h' : third < second) :
    ofMembers [(first, a), (second, b), (third, c)] =
      object [(third, c), (second, b), (first, a)] := by
  have hlist : Ordered.ofList [(first, a), (second, b), (third, c)] =
      Ordered.insert (Ordered.insert [(first, a)] second b) third c := rfl
  rw [ofMembers, hlist, Ordered.insert, if_pos h, Ordered.insert, if_pos h']

theorem ofMembers_rotated (h : first < second) (h' : third < first) :
    ofMembers [(first, a), (second, b), (third, c)] =
      object [(third, c), (first, a), (second, b)] := by
  have hlist : Ordered.ofList [(first, a), (second, b), (third, c)] =
      Ordered.insert (Ordered.insert [(first, a)] second b) third c := rfl
  have hfirst : Ordered.insert [(first, a)] second b = [(first, a)] ++ [(second, b)] :=
    Ordered.insert_of_above (List.forall_mem_singleton.mpr h) b
  rw [ofMembers, hlist, hfirst, List.singleton_append, Ordered.insert, if_pos h']

end

end Json

/-!
## Plain literals
-/

mutual

/-- The value is built from nulls, booleans, strings, integers, arrays and documents,
where a document that can be read as a reference is that reference and nothing more. -/
def Value.Plain : Value -> Prop
  | .null => True
  | .bool _ => True
  | .int _ _ => True
  | .string _ => True
  | .array items => Value.PlainItems items
  | .document entries =>
      match Reference.ofValue? (.document entries) with
      | some reference => Value.document entries = reference.toValue
      | none => Value.PlainEntries entries
  | _ => False

def Value.PlainItems : List Value -> Prop
  | [] => True
  | item :: rest => Value.Plain item ∧ Value.PlainItems rest

def Value.PlainEntries : List (String × Value) -> Prop
  | [] => True
  | (_, item) :: rest => Value.Plain item ∧ Value.PlainEntries rest

end

namespace Expr

def PlainLiteral : Expr -> Prop
  | literal value => value.Plain
  | _ => True

def Plain (expr : Expr) : Prop :=
  forall part, part ∈ expr.parts -> part.PlainLiteral

end Expr

/-!
## Reading back what is sent
-/

theorem Json.request_ofMembers_object (members : List (String × Json)) :
    (ofMembers [("object", ofMembers members)]).request =
      .object (Ordered.ofList (entryRequests members)) := by
  show Expr.object (entryRequests (Ordered.ofList members)) = _
  rw [entryRequests_eq_map, entryRequests_eq_map, Ordered.map_ofList Json.request]

theorem Json.asReference_wire (reference : Reference) :
    (ofMembers [("collection", string reference.collection),
      ("id", string reference.id)]).asReference = reference := by
  simp [ofMembers, Ordered.ofList, Ordered.get?_insert, asReference, member, asText,
    string?]

theorem Json.request_referenceWire (reference : Reference) :
    reference.wire.request = .literal reference.toValue := by
  show Expr.literal (Json.asReference _).toValue = _
  rw [Json.asReference_wire]

namespace Value

mutual

theorem request_wire : forall value : Value, value.Plain ->
    value.wire.request = value.request
  | array items, h => by
      rw [wire, Json.request_array, requests_itemWires items h, request]
  | document entries, h => by
      rw [Plain] at h
      rw [wire, request, Reference.isReference]
      cases hreference : Reference.ofValue? (document entries) with
      | some reference =>
          simp only [hreference] at h
          simpa [h] using Json.request_referenceWire reference
      | none =>
          simp only [hreference] at h
          simp only [Option.isSome_none, Bool.false_eq_true, if_false]
          rw [Json.request_ofMembers_object, entryRequests_entryWires entries h]
  | null, _ | bool _, _ | int _ _, _ | string _, _ => rfl

theorem requests_itemWires : forall items : List Value, PlainItems items ->
    Json.requests (itemWires items) = itemRequests items
  | [], _ => rfl
  | item :: rest, h => by
      rw [itemWires, Json.requests_cons, request_wire item h.1,
        requests_itemWires rest h.2, itemRequests]

theorem entryRequests_entryWires : forall entries : List (String × Value),
    PlainEntries entries ->
      Json.entryRequests (entryWires entries) = entryRequests entries
  | [], _ => rfl
  | (key, item) :: rest, h => by
      rw [entryWires, Json.entryRequests_cons, request_wire item h.1,
        entryRequests_entryWires rest h.2, entryRequests]

end

end Value

namespace Expr

theorem Plain.inside {expr : Expr} {inner : List Expr} (h : expr.Plain)
    (hparts : expr.parts = expr :: inner) :
    forall part, part ∈ inner -> part.PlainLiteral := by
  rw [Plain, hparts] at h
  exact (List.forall_mem_cons.mp h).2

mutual

/-- What is sent can be read back as the request that it is. -/
theorem request_wire : forall expr : Expr, expr.Plain ->
    expr.wire.request = expr.request
  | literal value, h => by
      rw [wire, request, Value.request_wire value (h _ (mem_parts_self _))]
  | array items, h => by
      rw [wire, Json.request_array, requests_wires items (h.inside rfl), request]
  | get reference, h => by
      rw [wire, request, <- request_wire reference (h.inside rfl)]
      rfl
  | select path source, h => by
      rcases List.forall_mem_append.mp (h.inside rfl) with ⟨hpath, hsource⟩
      rw [wire, Json.ofMembers_swapped _ _ (by decide), request,
        <- request_wire path hpath, <- request_wire source hsource]
      rfl
  | object entries, h => by
      rw [wire, Json.request_ofMembers_object, request,
        <- entryRequests_entryWires entries (h.inside rfl)]
  | letIn bindings body, h => by
      rcases List.forall_mem_append.mp (h.inside rfl) with ⟨hbindings, hbody⟩
      rw [wire, Json.ofMembers_swapped _ _ (by decide), request,
        <- entryRequests_entryWires bindings hbindings, <- request_wire body hbody,
        <- Json.bindingsOf_map]
      rfl
  | lambda parameters body, h => by
      rw [wire, Json.ofMembers_swapped _ _ (by decide), request,
        <- request_wire body (h.inside rfl)]
      exact congrArg (fun parameters => lambda parameters _)
        (Json.asParameters_parametersWire parameters)
  | selectOr path source fallback, h => by
      rcases List.forall_mem_append.mp (h.inside rfl) with ⟨hpath, hrest⟩
      rcases List.forall_mem_append.mp hrest with ⟨hsource, hfallback⟩
      rw [wire, Json.ofMembers_reversed _ _ _ (by decide) (by decide), request,
        <- request_wire path hpath, <- request_wire source hsource,
        <- request_wire fallback hfallback]
      rfl
  | containsPath path source, h => by
      rcases List.forall_mem_append.mp (h.inside rfl) with ⟨hpath, hsource⟩
      rw [wire, Json.ofMembers_two _ _ (by decide), request,
        <- request_wire path hpath, <- request_wire source hsource]
      rfl
  | ifThenElse condition consequence alternative, h => by
      rcases List.forall_mem_append.mp (h.inside rfl) with ⟨hcondition, hrest⟩
      rcases List.forall_mem_append.mp hrest with ⟨hconsequence, halternative⟩
      rw [wire, Json.ofMembers_rotated _ _ _ (by decide) (by decide), request,
        <- request_wire condition hcondition,
        <- request_wire consequence hconsequence,
        <- request_wire alternative halternative]
      rfl
  | ref home id, h => by
      rcases List.forall_mem_append.mp (h.inside rfl) with ⟨hhome, hid⟩
      rw [wire, Json.ofMembers_swapped _ _ (by decide), request,
        <- request_wire home hhome, <- request_wire id hid]
      rfl
  | documents home, h => by
      rw [wire, request, <- request_wire home (h.inside rfl)]
      rfl
  | matching indexed terms, h => by
      rcases List.forall_mem_append.mp (h.inside rfl) with ⟨hindexed, hterms⟩
      rw [wire, Json.ofMembers_two _ _ (by decide), request,
        <- request_wire indexed hindexed, <- request_wire terms hterms]
      rfl
  | paginate set none, h => by
      rw [wire, request, <- request_wire set (h.inside rfl)]
      rfl
  | paginate set (some size), h => by
      show (Json.ofMembers [("paginate", wire set), ("size", .int size)]).request = _
      rw [Json.ofMembers_two _ _ (by decide), request,
        <- request_wire set (h.inside rfl)]
      rfl
  | map source function, h => by
      rcases List.forall_mem_append.mp (h.inside rfl) with ⟨hsource, hfunction⟩
      rw [wire, Json.ofMembers_swapped _ _ (by decide), request,
        <- request_wire source hsource, <- request_wire function hfunction]
      rfl
  | count source, h => by
      rw [wire, request, <- request_wire source (h.inside rfl)]
      rfl
  | subtract operands, h => by
      rw [wire, request, <- requests_wires operands (h.inside rfl)]
      rfl
  | create home params, h => by
      rcases List.forall_mem_append.mp (h.inside rfl) with ⟨hhome, hparams⟩
      rw [wire, Json.ofMembers_two _ _ (by decide), request,
        <- request_wire home hhome, <- request_wire params hparams]
      rfl
  | update reference params, h => by
      rcases List.forall_mem_append.mp (h.inside rfl) with ⟨hreference, hparams⟩
      rw [wire, Json.ofMembers_swapped _ _ (by decide), request,
        <- request_wire reference hreference, <- request_wire params hparams]
      rfl
  | delete reference, h => by
      rw [wire, request, <- request_wire reference (h.inside rfl)]
      rfl
  | batch statements, h => by
      rw [wire, request, <- requests_wires statements (h.inside rfl)]
      rfl
  | createCollection definition, _ =>
      congrArg createCollection (Json.asCollectionDefinition_wire definition)
  | createIndex definition, _ =>
      congrArg createIndex (Json.asIndexDefinition_wire definition)
  | var _, _ | collection _, _ | index _, _ => rfl

theorem requests_wires : forall exprs : List Expr,
    (forall part, part ∈ partsOfAll exprs -> part.PlainLiteral) ->
      Json.requests (wires exprs) = requests exprs
  | [], _ => rfl
  | expr :: rest, h => by
      rcases List.forall_mem_append.mp h with ⟨hexpr, hrest⟩
      rw [wires, Json.requests_cons, request_wire expr hexpr, requests_wires rest hrest,
        requests]

theorem entryRequests_entryWires : forall entries : List (String × Expr),
    (forall part, part ∈ partsOfEntries entries -> part.PlainLiteral) ->
      Json.entryRequests (entryWires entries) = entryRequests entries
  | [], _ => rfl
  | (key, expr) :: rest, h => by
      rcases List.forall_mem_append.mp h with ⟨hexpr, hrest⟩
      rw [entryWires, Json.entryRequests_cons, request_wire expr hexpr,
        entryRequests_entryWires rest hrest, entryRequests]

end

end Expr

/-!
## Names of members
-/

def Json.has (json : Json) (name : String) : Bool :=
  match json with
  | object members => Keyed.contains members name
  | _ => false

theorem Json.has_ofMembers_head (name : String) (part : Json)
    (rest : List (String × Json)) :
    (ofMembers ((name, part) :: rest)).has name = true := by
  have hfold : forall (rest written : List (String × Json)),
      Keyed.contains written name = true ->
        Keyed.contains (rest.foldl
          (fun written entry => Ordered.insert written entry.1 entry.2) written)
          name = true := by
    intro rest
    induction rest with
    | nil =>
        intro written h
        exact h
    | cons entry rest ih =>
        intro written h
        apply ih
        rw [Keyed.contains, Ordered.get?_insert]
        split
        · rfl
        · exact h
  apply hfold rest
  simp [Keyed.contains, Ordered.get?_insert]

theorem Json.eq_of_has_single {own name : String} {part : Json}
    (h : (ofMembers [(own, part)]).has name = true) : name = own := by
  have hget : (Keyed.get? [(own, part)] name).isSome = true := h
  rw [Keyed.get?_cons] at hget
  split at hget
  · next heq => exact heq.symm
  · cases hget

theorem Value.has_wire {value : Value} {name : String}
    (h : value.wire.has name = true) : name = Reference.key ∨ name = "object" := by
  cases value with
  | document entries =>
      rw [wire] at h
      cases hreference : Reference.ofValue? (document entries) with
      | some reference =>
          simp only [hreference] at h
          exact Or.inl (Json.eq_of_has_single h)
      | none =>
          simp only [hreference] at h
          exact Or.inr (Json.eq_of_has_single h)
  | double x =>
      rw [wire] at h
      split at h <;> cases h
  | _ => cases h

namespace Expr

/-- The expression is neither a literal nor put together as one. -/
def isOperator : Expr -> Bool
  | literal _ => false
  | array _ => false
  | object _ => false
  | _ => true

theorem exists_head_of_isOperator {expr : Expr} (h : expr.isOperator = true) :
    exists name part rest, name ≠ Reference.key ∧ name ≠ "object" ∧
      expr.wire = Json.ofMembers ((name, part) :: rest) := by
  cases expr with
  | literal _ => cases h
  | array _ => cases h
  | object _ => cases h
  | _ =>
      rw [wire]
      exact ⟨_, _, _, by decide, by decide, rfl⟩

/-!
# Main statement
-/

theorem wire_tells_requests_apart :
    (forall a b : Expr, a.Plain -> b.Plain ->
      (a.wire = b.wire <-> a.SameRequest b)) ∧
    forall (value : Value) (operator : Expr), operator.isOperator = true ->
      (literal value).wire ≠ operator.wire := by
  constructor
  · intro a b ha hb
    constructor
    · intro hwire
      rw [SameRequest, <- request_wire a ha, hwire, request_wire b hb]
    · intro hsame
      rw [<- wire_request a, hsame, wire_request b]
  · intro value operator hoperator hwire
    rcases exists_head_of_isOperator hoperator with
      ⟨name, part, rest, hkey, hobject, hhead⟩
    have hhas : value.wire.has name = true := by
      have hliteral : value.wire = operator.wire := hwire
      rw [hliteral, hhead]
      exact Json.has_ofMembers_head name part rest
    exact (Value.has_wire hhas).elim hkey hobject

/-!
The statement at one creation, which is put together in two ways.  A reference and an
object that looks like one are not sent alike.
-/

/-- Of the two sizes the second counts. -/
def sizedNote : Expr :=
  create (collection "Note")
    (object
      [("data", object
        [("size", literal (.int .short 1)), ("tags", array [literal (.string "new")]),
          ("size", literal (.int .short 2))])])

def sizedNoteLiteral : Expr :=
  create (collection "Note")
    (literal (.document
      [("data", .document
        [("tags", .array [.string "new"]), ("size", .int .long 2)])]))

def lookalike : Expr :=
  object
    [("@ref", literal (.document
      [("collection", .string "Note"), ("id", .string "1")]))]

theorem sizedNote_sent_alike :
    sizedNote.Plain ∧ sizedNoteLiteral.Plain ∧ lookalike.Plain ∧
      sizedNote.wire = sizedNoteLiteral.wire ∧
      lookalike.wire ≠ (ofReference { collection := "Note", id := "1" }).wire ∧
      (literal (.document [("collection", .string "Note")])).wire ≠
        (collection "Note").wire := by
  have hsized : sizedNote.Plain := by
    simp [Plain, sizedNote, parts, partsOfEntries, partsOfAll, PlainLiteral,
      Value.Plain]
  have hliteral : sizedNoteLiteral.Plain := by
    simp [Plain, sizedNoteLiteral, parts, PlainLiteral, Value.Plain, Value.PlainEntries,
      Value.PlainItems, Reference.ofValue?, Value.document?, Keyed.get?, Reference.key]
  have hlookalike : lookalike.Plain := by
    simp [Plain, lookalike, parts, partsOfEntries, PlainLiteral, Value.Plain,
      Value.PlainEntries, Reference.ofValue?, Value.document?, Keyed.get?,
      Reference.key]
  have hreference : (ofReference { collection := "Note", id := "1" }).Plain := by
    simp [Plain, ofReference, parts, PlainLiteral, Reference.toValue, Value.Plain,
      Reference.ofValue?, Value.document?, Keyed.get?, Reference.key, Value.string?]
  have hsame : sizedNote.SameRequest sizedNoteLiteral := by
    with_unfolding_all rfl
  have hother :
      ¬ lookalike.SameRequest (ofReference { collection := "Note", id := "1" }) := by
    intro hsame
    have hobject : object _ = literal _ := hsame
    cases hobject
  exact ⟨hsized, hliteral, hlookalike,
    (wire_tells_requests_apart.1 _ _ hsized hliteral).mpr hsame,
    fun hwire =>
      hother ((wire_tells_requests_apart.1 _ _ hlookalike hreference).mp hwire),
    wire_tells_requests_apart.2 _ _ rfl⟩

end Expr
end DocumentMapper
