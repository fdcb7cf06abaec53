import DocumentMapper.Proofs.Shapes

/-!
# One trail

Issues are listed and values are shaped by two recursions, and each of them is handed
the path that it is at.  A single walk does both at once with one trail: it steps onto a
part and back off it, and adds the issues that it meets to those that are there.

The walk never looks at the trail.  It leaves the path as it was and adds to the issues
exactly those of the schema at that path, whatever is there before.
-/

namespace DocumentMapper

structure Trail where
  /-- The keys and positions that lead to where the walk is. -/
  path : List String
  /-- The issues that have been met, first ones first. -/
  issues : List Issue

def Trail.start : Trail :=
  { path := [], issues := [] }

/-- A step of the walk, which changes the trail and leaves something. -/
abbrev Walk := StateM Trail

namespace Walk

variable {item other : Type}

def report (fault : Fault) : Walk Value := do
  modify fun trail =>
    { trail with
        issues := trail.issues ++ [{ path := trail.path, fault := fault }] }
  pure .null

def inside (label : String) (walk : Walk item) : Walk item := do
  modify fun trail => { trail with path := trail.path ++ [label] }
  let left <- walk
  modify fun trail => { trail with path := trail.path.dropLast }
  pure left

def throughItems (visit : Value -> Walk Value) :
    Nat -> List Value -> Walk (List Value)
  | _, [] => pure []
  | place, element :: rest => do
      let left <- inside (toString place) (visit element)
      let others <- throughItems visit (place + 1) rest
      pure (left :: others)

/-- Adds to a document what is left of what is found under a key.  A value that is only
written is not looked at, and neither is a key that may be missing and is. -/
def atKey (schema : Schema) (visit : Value -> Walk Value) (key : String)
    (found : Option Value) (shaped : Document) : Walk Document :=
  match found with
  | some value =>
      if schema.isHidden then
        pure shaped
      else do
        let left <- visit value
        pure (Keyed.insert shaped key left)
  | none =>
      if schema.isOmittable then
        pure shaped
      else do
        let left <- visit .null
        pure (if left.isNull then shaped else Keyed.insert shaped key left)

end Walk

namespace Schema

open Walk

mutual

/-- Checks and shapes a value.  The cases overlap, and the first that fits counts. -/
def visit : Schema -> Value -> Walk Value
  | any, value => pure value
  | hidden, _ => pure .null
  | optional _, .null => pure .null
  | never, .null => pure .null
  | optional inner, value => visit inner value
  | omittable inner, value => visit inner value
  | never, _ => report .notAllowed
  | _, .null => report .required
  | string, .string s => pure (.string s)
  | number, .int width n => pure (.int width n)
  | number, .double x => pure (.double x)
  | boolean, .bool b => pure (.bool b)
  | oneOf options, .string s =>
      if s ∈ options then pure (.string s) else report (.invalidOption options s)
  | reference collection, .string id =>
      pure (Reference.toValue { collection := collection, id := id })
  | reference collection, value =>
      match Reference.ofValue? value with
      | some target =>
          if target.collection = collection then
            pure value
          else
            report (.invalidType (reference collection).kindText value.kindText)
      | none => report (.invalidType (reference collection).kindText value.kindText)
  | array item, .array items => do
      let left <- throughItems (fun element => visit item element) 0 items
      pure (.array left)
  | object fields, .document entries => do
      let left <- visitFields fields entries []
      pure (.document left)
  | schema, value => report (.invalidType schema.kindText value.kindText)

def visitFields :
    List (String × Schema) -> Document -> Document -> Walk Document
  | [], _, shaped => pure shaped
  | (key, schema) :: rest, entries, shaped => do
      let next <- inside key
        (atKey schema (fun value => visit schema value) key (Keyed.get? entries key)
          shaped)
      visitFields rest entries next

end

end Schema

/-!
## What a walk adds
-/

/-- Wherever it sets out, the walk adds the issues that are found at its path and
nothing else, and where it finds none it leaves the given result. -/
def Walk.Finds {item : Type} (walk : Walk item) (found : List String -> List Issue)
    (result : item) : Prop :=
  forall trail, exists left,
    walk.run trail =
        (left, { trail with issues := trail.issues ++ found trail.path }) ∧
      (found trail.path = [] -> left = result)

namespace Walk

variable {item other : Type}

theorem finds_pure (a : item) : Finds (pure a) (fun _ => []) a := by
  intro trail
  refine ⟨a, ?_, fun _ => rfl⟩
  rw [List.append_nil]
  rfl

theorem finds_report (fault : Fault) (result : Value) :
    Finds (report fault) (fun path => [{ path := path, fault := fault }]) result :=
  fun _ => ⟨.null, rfl, fun h => by cases h⟩

theorem finds_bind {walk : Walk item} {next : item -> Walk other}
    {found more : List String -> List Issue} {a : item} {continued : item -> other}
    (hfirst : Finds walk found a)
    (hnext : forall b, Finds (next b) more (continued b)) :
    Finds (walk >>= next) (fun path => found path ++ more path) (continued a) := by
  intro trail
  rcases hfirst trail with ⟨b, hrun, hfound⟩
  rcases hnext b { trail with issues := trail.issues ++ found trail.path } with
    ⟨left, hleft, hmore⟩
  refine ⟨left, ?_, ?_⟩
  · rw [StateT.run_bind, hrun, <- List.append_assoc]
    exact hleft
  · intro hnone
    rw [List.append_eq_nil_iff] at hnone
    rw [hmore hnone.2, hfound hnone.1]

theorem finds_map {walk : Walk item} {found : List String -> List Issue} {a : item}
    (h : Finds walk found a) (f : item -> other) :
    Finds (walk >>= fun b => pure (f b)) found (f a) := by
  have hbind := finds_bind h fun b => finds_pure (f b)
  simpa only [List.append_nil] using hbind

theorem finds_inside {walk : Walk item} {found : List String -> List Issue} {a : item}
    (h : Finds walk found a) (label : String) :
    Finds (inside label walk) (fun path => found (path ++ [label])) a := by
  intro trail
  rcases h { trail with path := trail.path ++ [label] } with ⟨left, hrun, hfound⟩
  refine ⟨left, ?_, hfound⟩
  show (do
    let ended <- walk.run { trail with path := trail.path ++ [label] }
    pure (ended.1, { ended.2 with path := ended.2.path.dropLast }) : Id _) = _
  rw [hrun]
  show (left, Trail.mk (trail.path ++ [label]).dropLast _) = _
  rw [List.dropLast_concat]

theorem finds_throughItems {visit : Value -> Walk Value}
    {found : List String -> Value -> List Issue} {result : Value -> Value}
    (h : forall element,
      Finds (visit element) (fun path => found path element) (result element))
    (first : Nat) (items : List Value) :
    Finds (throughItems visit first items)
      (fun path =>
        (items.mapIdx fun place element =>
          found (path ++ [toString (first + place)]) element).flatten)
      (items.map result) := by
  induction items generalizing first with
  | nil =>
      exact finds_pure []
  | cons element rest ih =>
      have hown := finds_inside (h element) (toString first)
      have hrest := ih (first + 1)
      have hboth := finds_bind hown fun left =>
        finds_map hrest fun others => left :: others
      simpa [throughItems, List.mapIdx_cons, Nat.add_assoc, Nat.add_comm 1] using hboth

end Walk

namespace Schema

open Walk

theorem finds_atKey {schema : Schema}
    (h : forall value,
      Finds (schema.visit value) (fun path => schema.issuesAt path value)
        (schema.shape value))
    (key : String) (found : Option Value) (shaped : Document) :
    Finds (atKey schema schema.visit key found shaped)
      (fun path => schema.issuesAtKey path found)
      (match schema.shapeAt found with
        | some left => Keyed.insert shaped key left
        | none => shaped) := by
  cases found with
  | some value =>
      cases hhidden : schema.isHidden with
      | true =>
          cases schema with
          | hidden => exact finds_pure shaped
          | _ => cases hhidden
      | false =>
          simp only [atKey, issuesAtKey, shapeAt, hhidden]
          exact finds_map (h value) fun left => Keyed.insert shaped key left
  | none =>
      cases homittable : schema.isOmittable with
      | true =>
          simp only [atKey, issuesAtKey, homittable]
          exact finds_pure shaped
      | false =>
          simp only [atKey, issuesAtKey, homittable]
          have hnull := finds_map (h .null) fun left =>
            if left.isNull then shaped else Keyed.insert shaped key left
          rwa [shape_null] at hnull

theorem finds_visitFields {fields : List (String × Schema)}
    (h : forall field, field ∈ fields -> forall value,
      Finds (field.2.visit value) (fun path => field.2.issuesAt path value)
        (field.2.shape value))
    (entries shaped : Document) :
    Finds (visitFields fields entries shaped)
      (fun path => issuesOfFields fields path entries)
      (shapeFields fields entries shaped) := by
  induction fields generalizing shaped with
  | nil =>
      exact finds_pure shaped
  | cons field rest ih =>
      rcases field with ⟨key, schema⟩
      rw [List.forall_mem_cons] at h
      simp only [visitFields, issuesOfFields_cons, shapeFields_cons]
      exact finds_bind (finds_inside (finds_atKey h.1 key _ shaped) key)
        fun next => ih h.2 next

theorem finds_visit_document (collection : String) (entries : Document) :
    Finds ((reference collection).visit (.document entries))
      (fun path => (reference collection).issuesAt path (.document entries))
      ((reference collection).shape (.document entries)) := by
  cases hread : Reference.ofValue? (.document entries) with
  | none =>
      simp only [visit, issuesAt, shapeReference, hread]
      exact finds_report _ _
  | some target =>
      simp only [visit, issuesAt, shape, shapeReference, hread]
      by_cases hsame : target.collection = collection
      · simp only [hsame, if_true]
        exact finds_pure _
      · simp only [hsame, if_false]
        exact finds_report _ _

theorem finds_visit (schema : Schema) (value : Value) :
    Finds (schema.visit value) (fun path => schema.issuesAt path value)
      (schema.shape value) := by
  induction schema generalizing value with
  | any =>
      exact finds_pure value
  | hidden =>
      exact finds_pure Value.null
  | never =>
      cases value with
      | null => exact finds_pure Value.null
      | _ => exact finds_report .notAllowed Value.null
  | optional inner ih =>
      cases value with
      | null =>
          rw [shape_null]
          exact finds_pure Value.null
      | _ => exact ih _
  | omittable inner ih =>
      exact ih value
  | string =>
      cases value with
      | string s => exact finds_pure _
      | _ => exact finds_report _ _
  | number =>
      cases value with
      | int width n => exact finds_pure _
      | double x => exact finds_pure _
      | _ => exact finds_report _ _
  | boolean =>
      cases value with
      | bool b => exact finds_pure _
      | _ => exact finds_report _ _
  | oneOf options =>
      cases value with
      | string s =>
          simp only [visit, issuesAt, shape]
          split
          · exact finds_pure _
          · exact finds_report _ _
      | _ => exact finds_report _ _
  | array item ih =>
      cases value with
      | array items =>
          have hitems := finds_map (finds_throughItems ih 0 items) Value.array
          simp only [Nat.zero_add] at hitems
          exact hitems
      | _ => exact finds_report _ _
  | reference collection =>
      cases value with
      | string id => exact finds_pure _
      | document entries => exact finds_visit_document collection entries
      | _ => exact finds_report _ _
  | object fields ih =>
      cases value with
      | document entries =>
          exact finds_map (finds_visitFields ih entries []) Value.document
      | _ => exact finds_report _ _

/-!
## The walk and the two recursions
-/

def parseByWalk (schema : Schema) (value : Value) : Except (List Issue) Value :=
  let ended := (schema.visit value).run Trail.start
  match ended.2.issues with
  | [] => .ok ended.1
  | found => .error found

theorem parseByWalk_eq (schema : Schema) (value : Value) :
    schema.parseByWalk value = schema.parse value := by
  rcases finds_visit schema value Trail.start with ⟨left, hended, hleft⟩
  have hrun : (schema.visit value).run Trail.start =
      (left, { path := [], issues := schema.issues value }) :=
    hended
  have hresult : schema.issues value = [] -> left = schema.shape value := hleft
  rw [parseByWalk, hrun, parse]
  cases hfound : schema.issues value with
  | nil => rw [hresult hfound]
  | cons issue rest => rfl

/-- The walk adds to the trail what is wrong at its path, whatever the trail holds. -/
theorem visit_trail (schema : Schema) (value : Value) (trail : Trail) :
    ((schema.visit value).run trail).2 =
      { trail with issues := trail.issues ++ schema.issuesAt trail.path value } := by
  rcases finds_visit schema value trail with ⟨left, hrun, _⟩
  rw [hrun]

end Schema
end DocumentMapper
