import DocumentMapper.Proofs.Deployed
import DocumentMapper.Proofs.Operations
import DocumentMapper.Proofs.ShapedPatches

/-!
# Typed data

The data of every stored instance has the shape of its model's schema, after any
run of operations.  A creation is checked as a whole; an update is checked as a
patch, and the merge keeps the shape; what links two instances is stored under a
name that no model has.
-/

namespace DocumentMapper

/-- The data of a document has the shape of a schema, and holds no null at its top. -/
def Document.HoldsData (schema : Schema) (document : Document) : Prop :=
  exists data, Keyed.get? document "data" = some (.document data) ∧
    schema.Shaped (.document data) ∧
    forall key, Keyed.get? data key ≠ some .null

def Document.TypedIn (models : List Model) (collection : String)
    (document : Document) : Prop :=
  forall model, model ∈ models -> model.name = collection ->
    HoldsData model.writeSchema document

def Store.Holds (asked : String -> Document -> Prop) (store : Store) : Prop :=
  forall collection entry, entry ∈ store.documentsOf collection ->
    asked collection entry.2

abbrev Store.Typed (models : List Model) (store : Store) : Prop :=
  store.Holds (Document.TypedIn models)

def Operation.DistinctKeys : Operation -> Prop
  | create data => (Value.document data).DistinctKeys
  | update _ data => (Value.document data).DistinctKeys
  | delete _ => True
  | link _ _ _ => True

/-!
## Documents
-/

namespace Document

open Schema

theorem nodup_keys_of_shaped {fields : List (String × Schema)} {data : Document}
    (h : (object fields).Shaped (.document data)) : (Keyed.keys data).Nodup := by
  rcases h with ⟨entries, hsame, hnodup, _⟩
  cases hsame
  exact hnodup

theorem holdsData_storedDocument {fields : List (String × Schema)}
    {data : Document} (h : (object fields).Shaped (.document data))
    (reference : Reference) (timestamp : Int) :
    HoldsData (object fields)
      (Store.storedDocument reference timestamp (withoutNulls data)) :=
  ⟨withoutNulls data, rfl, shaped_withoutNulls h,
    get?_withoutNulls_ne_null (nodup_keys_of_shaped h)⟩

theorem holdsData_patched {fields : List (String × Schema)}
    {document patch : Document} (h : HoldsData (object fields) document)
    (hpatch : (object fields).relaxed.Shaped (.document patch))
    (timestamp : Int) :
    HoldsData (object fields) (Store.patched document timestamp patch) := by
  rcases h with ⟨data, hdata, hshaped, hnull⟩
  have hold : Store.dataOf document = data := by
    simp [Store.dataOf, hdata, Value.document?]
  refine ⟨merge data patch, ?_, shaped_merge hshaped hpatch, fun key => ?_⟩
  · rw [Store.patched, Keyed.get?_insert, if_pos rfl, hold]
  · exact get?_merge_ne_null (nodup_keys_of_shaped hpatch) (hnull key)

end Document

/-!
## Operations
-/

namespace Store

variable {models : List Model} {store : Store} {clock : Clock}

theorem holds_putDocument {asked : String -> Document -> Prop}
    (h : store.Holds asked) (last : Nat) {collection : String} (number : Nat)
    {document : Document} (hdocument : asked collection document) :
    ((store.stepped clock last).putDocument collection number document).Holds
      asked := by
  intro other entry hentry
  rcases mem_documentsOf_putDocument hentry with ⟨hname, heq⟩ | hold
  · rw [heq, <- hname]
    exact hdocument
  · exact h other entry hold

theorem holds_remove {asked : String -> Document -> Prop} (h : store.Holds asked)
    (reference : Reference) : (store.remove reference).Holds asked := by
  intro other entry hentry
  exact h other entry
    ((sublist_documentsOf_remove store reference other).subset hentry)

theorem holds_of_deploy {deployment : Deployment} {deployed : Store}
    (hstored : forall model, model ∈ deployment.models -> model.derived = false)
    (hdeploy : (Client.memory clock).deploy deployment empty = .ok () deployed)
    (asked : String -> Document -> Prop) : deployed.Holds asked := by
  intro collection entry hentry
  rw [Deployment.documentsOf_deployed hstored hdeploy] at hentry
  cases hentry

/-- What an operation needs of the models: their names tell them apart, from each
other and from the collections of links. -/
structure NamesApart (models : List Model) : Prop where
  free : forall model, model ∈ models -> model.name ∉ Reference.reserved
  unique : forall model other, model ∈ models -> other ∈ models ->
    model.name = other.name -> model = other
  links : forall model other definition, model ∈ models -> other ∈ models ->
    definition ∈ model.perField Field.collections ->
      definition.name ≠ other.name

theorem Operated.typed {model : Model} {operation : Operation} {left : Store}
    (hnames : NamesApart models)
    (hschemas : forall model, model ∈ models -> model.writeSchema.DistinctKeys)
    (hmodel : model ∈ models) (hdistinct : operation.DistinctKeys)
    (hrun : store.Operated clock model operation left)
    (h : store.Typed models) : left.Typed models := by
  cases hrun with
  | unchanged =>
      exact h
  | created hparsed hcreate =>
      rcases createDocument_ok hcreate with ⟨_, hdocument, hleft⟩
      rw [hleft]
      apply holds_putDocument h
      intro other hother hname
      rw [hnames.unique other model hother hmodel hname, hdocument]
      exact Document.holdsData_storedDocument
        (Schema.shaped_of_parseDocument (hschemas model hmodel) hdistinct hparsed)
        _ _
  | updated hparsed hupdate =>
      rcases updateDocument_ok hupdate with
        ⟨found, number, hfound, _, hdocument, hleft⟩
      rw [hleft]
      apply holds_putDocument h
      intro other hother hname
      rw [hnames.unique other model hother hmodel hname, hdocument]
      rcases mem_documentsOf_of_find? (hnames.free model hmodel) hfound with
        ⟨place, _, hmem⟩
      have hpatch := Schema.shaped_of_parseDocument
        (Schema.distinctKeys_relaxed (hschemas model hmodel)) hdistinct hparsed
      exact Document.holdsData_patched (h _ _ hmem model hmodel rfl) hpatch _
  | deleted hdelete =>
      rw [(delete_ok hdelete).2]
      exact holds_remove h _
  | linked hfield hcreate =>
      rcases createDocument_ok hcreate with ⟨_, _, hleft⟩
      rw [hleft]
      apply holds_putDocument h
      intro other hother hname
      exact absurd hname.symm
        (hnames.links model other _ hmodel hother
          (Model.mem_perField (Keyed.mem_of_get? hfield)
            (List.mem_singleton_self _)))

end Store

theorem Deployment.Provided.namesApart {deployment : Deployment} {store : Store}
    (h : deployment.Provided store)
    (hfree : forall model, model ∈ deployment.models ->
      model.name ∉ Reference.reserved) :
    Store.NamesApart deployment.models where
  free := hfree
  unique _ _ hmodel hother hname :=
    h.model_unique hmodel hother List.mem_cons_self List.mem_cons_self hname
  links _ _ _ hmodel hother hdefinition :=
    h.join_ne_name hmodel hother hdefinition

/-!
# Main statement

Parsing the data again leaves it as it is up to the order of keys, a field that
refuses absence is there, and a reference leads into the collection of the model
that its field is about.
-/

namespace Document

variable {model : Model} {data : Document}

theorem shapedAt_field (h : model.writeSchema.Shaped (.document data))
    {name : String} {field : Field} (hfield : (name, field) ∈ model.fields) :
    field.writeSchema.ShapedAt (Keyed.get? data name) := by
  rcases h with ⟨entries, hsame, _, _, hfields⟩
  cases hsame
  exact Schema.shapedFields_iff.mp hfields (name, field.writeSchema)
    (List.mem_map_of_mem
      (f := fun field : String × Field => (field.1, field.2.writeSchema)) hfield)

theorem present_of_required (h : model.writeSchema.Shaped (.document data))
    (hnull : forall key, Keyed.get? data key ≠ some .null) {name : String}
    {field : Field} (hfield : (name, field) ∈ model.fields)
    (hrequired : field.writeSchema.accepts .null = false)
    (homittable : field.writeSchema.isOmittable = false) :
    exists value, Keyed.get? data name = some value ∧ value ≠ .null := by
  have hat := shapedAt_field h hfield
  cases hfound : Keyed.get? data name with
  | some value =>
      refine ⟨value, rfl, ?_⟩
      intro heq
      rw [heq] at hfound
      exact hnull name hfound
  | none =>
      rw [hfound] at hat
      cases hat with
      | inl hmay =>
          rw [homittable] at hmay
          cases hmay
      | inr hshaped =>
          have haccepts : field.writeSchema.accepts .null = true :=
            Schema.accepts_iff.mpr (Schema.issuesAt_of_shaped hshaped)
          rw [hrequired] at haccepts
          cases haccepts

theorem referenceInto_of_field (h : model.writeSchema.Shaped (.document data))
    (hnull : forall key, Keyed.get? data key ≠ some .null) {name : String}
    {related : Model} {isOptional : Bool} {relation : Relation}
    {options : FieldOptions}
    (hfield : (name, .reference related isOptional relation options) ∈
      model.fields)
    {value : Value} (hvalue : Keyed.get? data name = some value) :
    Schema.ReferenceInto related.name value := by
  have hat := shapedAt_field h hfield
  rw [hvalue] at hat
  have hshaped : (Field.reference related isOptional relation options).writeSchema.Shaped
      value := hat.2
  cases isOptional with
  | false =>
      exact hshaped
  | true =>
      cases hshaped with
      | inl heq =>
          rw [heq] at hvalue
          exact absurd hvalue (hnull name)
      | inr hreference =>
          exact hreference

end Document

theorem Deployment.data_stays_typed {deployment : Deployment}
    (hstored : forall model, model ∈ deployment.models -> model.derived = false)
    (hfree : forall model, model ∈ deployment.models ->
      model.name ∉ Reference.reserved)
    (hschemas : forall model, model ∈ deployment.models ->
      model.writeSchema.DistinctKeys)
    {clock : Clock} {deployed : Store}
    (hdeploy : (Client.memory clock).deploy deployment Store.empty =
      .ok () deployed)
    {calls : List Call}
    (hcalls : forall call, call ∈ calls ->
      call.model ∈ deployment.models ∧ call.operation.DistinctKeys) :
    forall model, model ∈ deployment.models ->
      forall entry,
        entry ∈ (deployed.afterCalls calls).documentsOf model.name ->
        exists data, Keyed.get? entry.2 "data" = some (.document data) ∧
          (exists parsed,
            model.writeSchema.parse (.document data) = .ok parsed ∧
              Value.Alike parsed (.document data)) ∧
          (forall name field, (name, field) ∈ model.fields ->
            field.writeSchema.accepts .null = false ->
            field.writeSchema.isOmittable = false ->
            exists value, Keyed.get? data name = some value ∧ value ≠ .null) ∧
          (forall name related isOptional relation options value,
            (name, .reference related isOptional relation options) ∈
              model.fields ->
            Keyed.get? data name = some value ->
            exists id, Reference.ofValue? value =
              some { collection := related.name, id := id }) := by
  have hnames := (provided_of_deploy hstored hdeploy).namesApart hfree
  have hconsistent := (reachable_of_deploy hdeploy).consistent
  have htyped : deployed.Typed deployment.models :=
    Store.holds_of_deploy hstored hdeploy _
  have hrun : (deployed.afterCalls calls).Typed deployment.models := by
    refine (Store.afterCalls_keeps ?_ hconsistent htyped).2
    intro call hcall store left _ hstore hoperated
    exact hoperated.typed hnames hschemas (hcalls call hcall).1
      (hcalls call hcall).2 hstore
  intro model hmodel entry hentry
  rcases hrun _ entry hentry model hmodel rfl with
    ⟨data, hdata, hshaped, hnull⟩
  refine ⟨data, hdata, Schema.parse_of_shaped (hschemas model hmodel) hshaped,
    ?_, ?_⟩
  · intro name field hfield hrequired homittable
    exact Document.present_of_required hshaped hnull hfield hrequired homittable
  · intro name related isOptional relation options value hfield hvalue
    exact (Document.referenceInto_of_field hshaped hnull hfield hvalue).ofValue?

/-!
The statement at one run: a place has an address and belongs to an author, an
update merges an address into the old one, and another is refused.
-/

def placeModel : Model :=
  { name := "Place"
    fields :=
      [("address",
          .scalar
            (.object [("street", .string), ("note", .optional .string)])
            .any FieldOptions.plain),
        ("author", .reference authorModel true Relation.oneWay
          FieldOptions.plain)]
    derived := false }

def placeDeployment : Deployment :=
  { models := [authorModel, placeModel] }

def placeCalls : List Call :=
  [{ clock := fun _ => 0
     model := authorModel
     operation := .create [("name", .string "Ann")] },
    { clock := fun _ => 0
      model := placeModel
      operation := .create
        [("address",
            .document [("note", .string "east"), ("street", .string "Elm")]),
          ("author", .string "1")] },
    { clock := fun _ => 0
      model := placeModel
      operation := .update "2"
        [("address",
          .document [("street", .string "Oak"), ("note", .null)])] },
    { clock := fun _ => 0
      model := placeModel
      operation := .update "2" [("address", .string "Ash")] }]

theorem placeCalls_data_typed :
    exists deployed,
      (Client.memory fun _ => 0).deploy placeDeployment Store.empty =
        .ok () deployed ∧
      (deployed.afterCalls placeCalls).documentsOf "Place" =
        [(2,
          [("ref", (Store.numbered "Place" 2).toValue),
            ("ts", .int .long 5),
            ("data",
              .document
                [("address", .document [("street", .string "Oak")]),
                  ("author", (Store.numbered "Author" 1).toValue)])])] ∧
      forall entry,
        entry ∈ (deployed.afterCalls placeCalls).documentsOf "Place" ->
        exists data, Keyed.get? entry.2 "data" = some (.document data) ∧
          exists parsed,
            placeModel.writeSchema.parse (.document data) = .ok parsed ∧
              Value.Alike parsed (.document data) := by
  have hdeploy : (Client.memory fun _ => 0).deploy placeDeployment Store.empty =
      .ok () (Store.empty.after
        ((Client.memory fun _ => 0).deploy placeDeployment)) := by
    rfl
  have hplace : placeModel ∈ placeDeployment.models := by
    simp [placeDeployment]
  have hschemas : forall model, model ∈ placeDeployment.models ->
      model.writeSchema.DistinctKeys := by
    simp [placeDeployment, authorModel, placeModel, Model.writeSchema,
      Field.writeSchema, Schema.orAbsentIf, Schema.orAbsent,
      Schema.DistinctKeys, Schema.DistinctKeysInFields, Keyed.keys]
  have hcalls : forall call, call ∈ placeCalls ->
      call.model ∈ placeDeployment.models ∧ call.operation.DistinctKeys := by
    simp [placeCalls, placeDeployment, Operation.DistinctKeys,
      Value.DistinctKeys, Value.DistinctKeysInEntries, Keyed.keys]
  refine ⟨_, hdeploy, by rfl, ?_⟩
  intro entry hentry
  have htyped := Deployment.data_stays_typed (by decide) (by decide) hschemas
    hdeploy hcalls placeModel hplace entry hentry
  rcases htyped with ⟨data, hdata, hparsed, _⟩
  exact ⟨data, hdata, hparsed⟩

end DocumentMapper
