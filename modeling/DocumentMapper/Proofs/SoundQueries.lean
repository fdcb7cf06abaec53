import DocumentMapper.Proofs.Extended

/-!
# Queries that never go wrong

The only errors that the operations of a manager answer in a sound store are those
that a caller has to expect: what is asked for is refused, is not there or is there
already under a unique term.  No query that a model compiles to is malformed, no
answer is of another shape than its model says, and nothing is created twice.  Rows in no
consistent order may stop a query, and then there is neither an answer nor an error.
-/

namespace DocumentMapper

def Error.isExpected : Error -> Bool
  | .validation _ => true
  | .misuse _ => true
  | .instanceNotFound => true
  | .instanceNotUnique => true
  | _ => false

namespace Action

variable {item other : Type} {store : Store}

/-- The action answers, or fails with an error that is expected, or stops without an answer
at rows that cannot be sorted. -/
def FailsAsExpected (action : Action item) (store : Store) : Prop :=
  forall error left, action store = .error error left ->
    error.isExpected = true ∨ error = .stopped ∧ left.Disordered

theorem failsAsExpected_pure (a : item) :
    FailsAsExpected (pure a) store := by
  intro error left h
  cases h

theorem failsAsExpected_bind {action : Action item}
    {next : item -> Action other} (hfirst : FailsAsExpected action store)
    (hnext : forall a left, action store = .ok a left ->
      FailsAsExpected (next a) left) :
    FailsAsExpected (action >>= next) store := by
  intro error left h
  simp only [bind, EStateM.bind] at h
  split at h
  · next a between hrun => exact hnext a between hrun error left h
  · next fault between hrun =>
      cases h
      exact hfirst _ _ hrun

theorem Reads.failsAsExpected {action : Action item} {outcome : Reading item}
    (h : Reads action store outcome) (hwell : outcome.WellFormed store) :
    FailsAsExpected action store := by
  intro error left herror
  cases outcome with
  | ok a =>
      have hrun : action store = .ok a store := h
      rw [hrun] at herror
      cases herror
  | error fault =>
      rcases h with ⟨shown, hshows, hrun⟩
      rw [hrun] at herror
      cases herror
      rcases hwell fault rfl with rfl | ⟨rfl, hdisordered⟩
      · cases hshows
        exact Or.inl rfl
      · cases hshows
        exact Or.inr ⟨rfl, hdisordered⟩

end Action

open DocumentMapper.Action

/-!
## Writes
-/

namespace Store

variable {clock : Clock} {store : Store}

theorem isExpected_of_createDocument {collection : String} {data : Document} {error : Error}
    {left : Store} (h : createDocument clock collection data store = .error error left) :
    error.isExpected = true := by
  unfold createDocument at h
  split at h
  · simp only at h
    split at h
    · cases h
      rfl
    · cases h
  · cases h
    rfl

theorem isExpected_of_updateDocument {reference : Reference} {patch : Document} {error : Error}
    {left : Store} (h : updateDocument clock reference patch store = .error error left) :
    error.isExpected = true := by
  unfold updateDocument at h
  split at h
  · simp only at h
    split at h
    · cases h
      rfl
    · cases h
  · cases h
    rfl

theorem isExpected_of_delete {reference : Reference} {error : Error} {left : Store}
    (h : delete reference store = .error error left) : error.isExpected = true := by
  unfold delete at h
  split at h
  · cases h
  · cases h
    rfl

theorem failsAsExpected_query_write {expr : Expr} {write : Action Document}
    (hexpr : expr.evaluate clock [] =
      (do
        let document <- write
        pure (.document document)))
    (h : forall error left, write store = .error error left -> error.isExpected = true) :
    FailsAsExpected (query clock expr) store := by
  intro error left herror
  rw [query_write hexpr] at herror
  split at herror
  · cases herror
  · next fault after hrun =>
      cases herror
      exact Or.inl (h _ _ hrun)

theorem ok_of_query_write {expr : Expr} {write : Action Document}
    (hexpr : expr.evaluate clock [] =
      (do
        let document <- write
        pure (.document document)))
    {value : Value} {left : Store}
    (h : query clock expr store = .ok value left) :
    exists document, value = .document document ∧
      write store = .ok document left := by
  rw [query_write hexpr] at h
  split at h
  · next document after hrun =>
      cases h
      exact ⟨document, rfl, hrun⟩
  · cases h

end Store

/-!
## Answers
-/

namespace Model

theorem document_of_parse {fields : List (String × Schema)} {value parsed : Value}
    (h : (Schema.object fields).parse value = .ok parsed) :
    exists entries, parsed = .document entries := by
  rcases Schema.parse_eq_ok_iff.mp h with ⟨hissues, hshape⟩
  cases value with
  | document entries =>
      exact ⟨_, hshape.symm⟩
  | _ =>
      cases hissues

theorem documents_of_parse {fields : List (String × Schema)}
    {value parsed : Value}
    (h : (Schema.object fields).list.parse value = .ok parsed) :
    exists items, parsed = .array items ∧
      forall item, item ∈ items -> exists entries, item = .document entries := by
  rcases Schema.parse_eq_ok_iff.mp h with ⟨hissues, hshape⟩
  cases value with
  | array items =>
      refine ⟨_, hshape.symm, ?_⟩
      intro item hitem
      rcases List.mem_map.mp hitem with ⟨given, hgiven, heq⟩
      rcases Schema.issuesAt_item_eq_nil hissues hgiven with ⟨inside, hown⟩
      cases given with
      | document entries =>
          exact ⟨_, heq.symm⟩
      | _ =>
          cases hown
  | _ =>
      cases hissues

theorem mapM_expectInstance {items : List Value}
    (h : forall item, item ∈ items -> exists entries, item = .document entries) :
    exists found, items.mapM expectInstance = .ok found := by
  induction items with
  | nil =>
      exact ⟨[], rfl⟩
  | cons item rest ih =>
      have hall := List.forall_mem_cons.mp h
      rcases hall.1 with ⟨entries, hentries⟩
      rcases ih hall.2 with ⟨found, hfound⟩
      refine ⟨entries :: found, ?_⟩
      rw [List.mapM_cons, hentries, hfound]
      rfl

theorem readSchema_eq_object (model : Model) :
    exists fields, model.readSchema = .object fields := by
  rcases model with ⟨name, fields, derived⟩
  exact ⟨_, rfl⟩

theorem isExpected_of_parseInstance {model : Model} {raw : Value} {error : Error}
    (h : model.parseInstance raw = .error error) : error.isExpected = true := by
  rcases model.readSchema_eq_object with ⟨fields, hschema⟩
  cases hparse : model.readSchema.parse raw with
  | error issues =>
      simp [parseInstance, hparse, Except.mapError, bind, Except.bind] at h
      rw [<- h]
      rfl
  | ok parsed =>
      have hobject := hparse
      rw [hschema] at hobject
      rcases document_of_parse hobject with ⟨entries, hentries⟩
      simp [parseInstance, hparse, hentries, Except.mapError, bind, Except.bind,
        expectInstance] at h

theorem isExpected_of_parseInstances {model : Model} {raw : Value}
    {error : Error} (h : model.parseInstances raw = .error error) :
    error.isExpected = true := by
  rcases model.readSchema_eq_object with ⟨fields, hschema⟩
  cases hparse : model.readSchema.list.parse raw with
  | error issues =>
      simp [parseInstances, hparse, Except.mapError, bind, Except.bind] at h
      rw [<- h]
      rfl
  | ok parsed =>
      have hlist := hparse
      rw [hschema] at hlist
      rcases documents_of_parse hlist with ⟨items, hitems, hdocuments⟩
      rcases mapM_expectInstance hdocuments with ⟨found, hfound⟩
      simp [parseInstances, hparse, hitems, hfound, Except.mapError, bind,
        Except.bind] at h

end Model

/-!
## Reading
-/

namespace Manager

variable {deployment : Deployment} {clock : Clock} {model : Model} {store : Store}

theorem failsAsExpected_settle {item : Type} {outcome : Except Error item}
    (h : forall error, outcome = .error error -> error.isExpected = true) :
    FailsAsExpected (settle outcome : Session Store item) store := by
  intro error left herror
  cases outcome with
  | ok a =>
      cases herror
  | error fault =>
      cases herror
      exact Or.inl (h _ rfl)

theorem ok_of_settle {item : Type} {outcome : Except Error item} {a : item}
    {left : Store}
    (h : (settle outcome : Session Store item) store = .ok a left) :
    outcome = .ok a ∧ left = store := by
  cases outcome with
  | ok found =>
      cases h
      exact ⟨rfl, rfl⟩
  | error fault =>
      cases h

theorem failsAsExpected_readOne {request : Expr} {outcome : Reading Value}
    (h : Reads (request.evaluate clock []) store outcome)
    (hwell : outcome.WellFormed store) :
    FailsAsExpected ((memory clock model).readOne request) store :=
  failsAsExpected_bind ((Store.query_reads h).failsAsExpected hwell)
    fun _ _ _ =>
      failsAsExpected_settle fun _ herror =>
        Model.isExpected_of_parseInstance herror

theorem failsAsExpected_readAll {request : Expr} {outcome : Reading Value}
    (h : Reads (request.evaluate clock []) store outcome)
    (hwell : outcome.WellFormed store) :
    FailsAsExpected ((memory clock model).readAll request) store :=
  failsAsExpected_bind ((Store.query_reads h).failsAsExpected hwell)
    fun _ _ _ =>
      failsAsExpected_settle fun _ herror =>
        Model.isExpected_of_parseInstances herror

theorem failsAsExpected_dereference (hstore : store.Consistent)
    (hlegible : store.Legible model) {reference : Reference}
    (hreference : reference.collection = model.name) :
    FailsAsExpected ((memory clock model).dereference reference) store := by
  have hwell := hlegible.read (hreference ▸ Value.refersTo_toValue reference)
  exact failsAsExpected_readOne (Model.reads_ofReference hstore model reference)
    hwell

theorem failsAsExpected_get (hstore : store.Consistent)
    (hlegible : store.Legible model) (id : String) :
    FailsAsExpected ((memory clock model).get id) store := by
  have hwell := hlegible.read
    (Value.refersTo_toValue { collection := model.name, id := id })
  exact failsAsExpected_readOne (Model.reads_getRequest hstore model id) hwell

theorem refersTo_of_references? (hstore : store.Consistent) {name : String}
    (hfree : name ∉ Reference.reserved) {found : List Value}
    (h : store.references? name = some found) {value : Value}
    (hvalue : value ∈ found) : value.RefersTo name := by
  rw [hstore.references?_eq hfree, Option.map_eq_some_iff] at h
  rcases h with ⟨stored, _, heq⟩
  rw [<- heq] at hvalue
  rcases List.mem_map.mp hvalue with ⟨number, _, href⟩
  rw [<- href]
  exact Value.refersTo_toValue (Store.numbered name number)

theorem failsAsExpected_paginate (hstore : store.Consistent)
    (hlegible : store.Legible model) (terms : List Value) :
    FailsAsExpected ((memory clock model).paginate none terms) store := by
  refine failsAsExpected_readAll
    (Model.reads_paginate_collection hstore model (terms.map Expr.literal) []) ?_
  refine Reading.wellFormed_bind (Reading.wellFormed_found_missing _)
    fun found hfound => ?_
  refine Reading.wellFormed_bind (Reading.wellFormed_mapM ?_)
    fun items _ => Reading.wellFormed_pure (Value.array items)
  intro value hvalue
  exact hlegible.read (refersTo_of_references? hstore hlegible.free
    (Reading.found_eq_ok_iff.mp hfound) (List.mem_of_mem_take hvalue))

theorem failsAsExpected_ownIndex (hmodels : deployment.Admissible)
    (h : store.Sound deployment.models) (hmodel : model ∈ deployment.models)
    {name : String} {field : Field} (hfield : model.field? name = some field)
    (hindex : field.options.hasIndex = true) (term : Value) :
    FailsAsExpected
      ((memory clock model).readAll (model.ownIndexRequest name term)) store := by
  have hleads := h.ownIndexLeads hmodels hmodel (Keyed.mem_of_get? hfield) hindex
  have hlegible := h.legible hmodels hmodel
  exact failsAsExpected_readAll
    (Model.reads_paginate_index h.consistent model (ownIndexName model.name name)
      term [])
    (hleads.readEntries term fun last hlast => hlegible.read hlast)

/-!
## Requests
-/

theorem failsAsExpected_request {item fault : Type} {wrap : fault -> Error}
    (hwrap : forall cause, (wrap cause).isExpected = true)
    (request : Except fault item) :
    FailsAsExpected (settle (request.mapError wrap) : Session Store item)
      store := by
  apply failsAsExpected_settle
  intro error herror
  cases request with
  | ok a =>
      cases herror
  | error cause =>
      cases herror
      exact hwrap cause

theorem ok_of_request {item fault : Type} {wrap : fault -> Error}
    {request : Except fault item} {a : item} {left : Store}
    (h : (settle (request.mapError wrap) : Session Store item) store =
      .ok a left) :
    request = .ok a ∧ left = store := by
  rcases ok_of_settle h with ⟨hrequest, hleft⟩
  refine ⟨?_, hleft⟩
  cases request with
  | ok found =>
      cases hrequest
      rfl
  | error cause =>
      cases hrequest

theorem failsAsExpected_getBy (hmodels : deployment.Admissible)
    (h : store.Sound deployment.models) (hmodel : model ∈ deployment.models)
    (field : String) (term : Value) :
    FailsAsExpected ((memory clock model).getBy field term) store := by
  apply failsAsExpected_bind (failsAsExpected_request (fun _ => rfl) _)
  intro request left hrequest
  rcases ok_of_request hrequest with ⟨hok, hleft⟩
  rcases Model.getByRequest_ok hok with ⟨own, hfield, hindex, heq⟩
  rw [hleft, heq]
  exact failsAsExpected_bind
    (failsAsExpected_ownIndex hmodels h hmodel hfield hindex term)
    fun found _ _ => failsAsExpected_pure found.head?

theorem failsAsExpected_paginateBy (hmodels : deployment.Admissible)
    (h : store.Sound deployment.models) (hmodel : model ∈ deployment.models)
    (field : String) (term : Value) :
    FailsAsExpected ((memory clock model).paginateBy field term) store := by
  apply failsAsExpected_bind (failsAsExpected_request (fun _ => rfl) _)
  intro request left hrequest
  rcases ok_of_request hrequest with ⟨hok, hleft⟩
  rcases Model.paginateByRequest_ok hok with ⟨own, hfield, hindex, heq⟩
  rw [hleft, heq]
  exact failsAsExpected_ownIndex hmodels h hmodel hfield hindex term

theorem createdReference_storedDocument (reference : Reference) (timestamp : Int)
    (data : Document) :
    createdReference
        (.document (Store.storedDocument reference timestamp data)) =
      .ok reference :=
  rfl

/-- What is created is read back from the store that the creation leaves, which is
sound again. -/
theorem failsAsExpected_create {provided : Store}
    (hmodels : deployment.Admissible) (hprovided : deployment.Provided provided)
    (h : store.Sound deployment.models) (hmodel : model ∈ deployment.models)
    {data : Document} (hdata : (Value.document data).DistinctKeys) :
    FailsAsExpected ((memory clock model).create data) store := by
  apply failsAsExpected_bind (failsAsExpected_request (fun _ => rfl) _)
  intro request left hrequest
  rcases ok_of_request hrequest with ⟨hok, hleft⟩
  rcases Model.createRequest_ok hok with ⟨parsed, hparsed, heq⟩
  rw [hleft, heq]
  apply failsAsExpected_bind
    (Store.failsAsExpected_query_write (Expr.evaluate_create _ _)
      fun _ _ => Store.isExpected_of_createDocument)
  intro value after hquery
  rcases Store.ok_of_query_write (Expr.evaluate_create _ _) hquery with
    ⟨document, hvalue, hrun⟩
  have hoperated : store.Operated clock model (.create data) after :=
    .created hparsed hrun
  have hdistinct : (Operation.create data).DistinctKeys := hdata
  have hsound := hoperated.sound hmodels hprovided hmodel hdistinct h
  rw [hvalue, (Store.createDocument_ok hrun).2.1,
    createdReference_storedDocument]
  exact failsAsExpected_dereference hsound.consistent
    (hsound.legible hmodels hmodel) rfl

theorem failsAsExpected_update {provided : Store}
    (hmodels : deployment.Admissible) (hprovided : deployment.Provided provided)
    (h : store.Sound deployment.models) (hmodel : model ∈ deployment.models)
    (id : String) {data : Document}
    (hdata : (Value.document data).DistinctKeys) :
    FailsAsExpected ((memory clock model).update id data) store := by
  apply failsAsExpected_bind (failsAsExpected_request (fun _ => rfl) _)
  intro request left hrequest
  rcases ok_of_request hrequest with ⟨hok, hleft⟩
  rcases Model.updateRequest_ok hok with ⟨parsed, hparsed, heq⟩
  rw [hleft, heq]
  apply failsAsExpected_bind
    (Store.failsAsExpected_query_write (Expr.evaluate_update _ _ _)
      fun _ _ => Store.isExpected_of_updateDocument)
  intro value after hquery
  rcases Store.ok_of_query_write (Expr.evaluate_update _ _ _) hquery with
    ⟨document, _, hrun⟩
  have hoperated : store.Operated clock model (.update id data) after :=
    .updated hparsed hrun
  have hdistinct : (Operation.update id data).DistinctKeys := hdata
  have hsound := hoperated.sound hmodels hprovided hmodel hdistinct h
  exact failsAsExpected_get hsound.consistent (hsound.legible hmodels hmodel) id

theorem failsAsExpected_delete (id : String) :
    FailsAsExpected ((memory clock model).delete id) store :=
  failsAsExpected_bind
    (Store.failsAsExpected_query_write (Expr.evaluate_delete _ _)
      fun _ _ => Store.isExpected_of_delete)
    fun _ _ _ => failsAsExpected_pure ()

theorem failsAsExpected_link (id field related : String) :
    FailsAsExpected ((memory clock model).link id field related) store := by
  apply failsAsExpected_bind (failsAsExpected_request (fun _ => rfl) _)
  intro request left hrequest
  rcases ok_of_request hrequest with ⟨hok, hleft⟩
  rcases Model.linkRequest_ok hok with ⟨other, relation, join, singular, _, heq⟩
  rw [hleft, heq]
  exact failsAsExpected_bind
    (Store.failsAsExpected_query_write (Expr.evaluate_link _ _ _ _ _ _)
      fun _ _ => Store.isExpected_of_createDocument)
    fun _ _ _ => failsAsExpected_pure ()

end Manager

/-!
# Main statement
-/

theorem Deployment.queries_fail_as_expected {deployment : Deployment}
    (hmodels : deployment.Admissible) {clock : Clock} {deployed : Store}
    (hdeploy : (Client.memory clock).deploy deployment Store.empty =
      .ok () deployed)
    {calls : List Call}
    (hcalls : forall call, call ∈ calls ->
      call.model ∈ deployment.models ∧ call.operation.DistinctKeys) :
    (forall model, model ∈ deployment.models -> forall now : Clock,
      let manager := Manager.memory now model
      let store := deployed.afterCalls calls
      (forall field term, FailsAsExpected (manager.getBy field term) store) ∧
      (forall field term, FailsAsExpected (manager.paginateBy field term) store) ∧
      (forall data, (Value.document data).DistinctKeys ->
        FailsAsExpected (manager.create data) store) ∧
      (forall id data, (Value.document data).DistinctKeys ->
        FailsAsExpected (manager.update id data) store) ∧
      (forall id, FailsAsExpected (manager.delete id) store) ∧
      (forall id field related,
        FailsAsExpected (manager.link id field related) store)) ∧
    (forall model, Model.ExtendedFrom deployment.models model ->
      forall now : Clock,
        let manager := Manager.memory now model
        let store := deployed.afterCalls calls
        (forall id, FailsAsExpected (manager.get id) store) ∧
        (forall terms, FailsAsExpected (manager.paginate none terms) store)) := by
  have hprovided := provided_of_deploy hmodels.stored hdeploy
  have hsound := (Store.sound_of_deploy hmodels hdeploy).afterCalls hmodels
    hprovided hcalls
  constructor
  · intro model hmodel now manager store
    refine ⟨?_, ?_, ?_, ?_, ?_, ?_⟩
    · exact Manager.failsAsExpected_getBy hmodels hsound hmodel
    · exact Manager.failsAsExpected_paginateBy hmodels hsound hmodel
    · intro data hdata
      exact Manager.failsAsExpected_create hmodels hprovided hsound hmodel hdata
    · intro id data hdata
      exact Manager.failsAsExpected_update hmodels hprovided hsound hmodel id hdata
    · exact Manager.failsAsExpected_delete
    · exact Manager.failsAsExpected_link
  · intro model hextended now manager store
    have hlegible := (hsound.legible_of_extended hmodels hextended).1
    constructor
    · exact Manager.failsAsExpected_get hsound.consistent hlegible
    · exact Manager.failsAsExpected_paginate hsound.consistent hlegible

/-!
The statement at one run: a post is linked to a tag, its author is deleted, and
the tag is read with its posts, which are read with their authors.
-/

def tagModel : Model :=
  { name := "Tag"
    fields :=
      [("label", .scalar .string .string { FieldOptions.plain with unique := true })]
    derived := false }

def postModel : Model :=
  { name := "Post"
    fields :=
      [("author", .reference authorModel true Relation.oneWay
          FieldOptions.plain),
        ("tags", .manyToMany tagModel
          { Relation.oneWay with reverse := some "posts" } JoinNames.derived none)]
    derived := false }

def tagWithPosts : Model :=
  { tagModel with
    fields := tagModel.fields ++ [("posts", .reverse postModel "posts_by_tags")]
    derived := true }

def postDeployment : Deployment :=
  { models := [authorModel, tagModel, postModel] }

def postCalls : List Call :=
  [{ clock := fun _ => 0
     model := authorModel
     operation := .create [("name", .string "Ann")] },
    { clock := fun _ => 0
      model := tagModel
      operation := .create [("label", .string "new")] },
    { clock := fun _ => 0
      model := postModel
      operation := .create [("author", .string "1")] },
    { clock := fun _ => 0
      model := postModel
      operation := .link "3" "tags" "2" },
    { clock := fun _ => 0, model := authorModel, operation := .delete "1" }]

theorem tagWithPosts_fails_as_expected :
    exists deployed,
      (Client.memory fun _ => 0).deploy postDeployment Store.empty =
        .ok () deployed ∧
      Model.reverse tagModel postModel [("posts", "tags")] = .ok tagWithPosts ∧
      FailsAsExpected ((Manager.memory (fun _ => 0) tagWithPosts).get "2")
        (deployed.afterCalls postCalls) ∧
      FailsAsExpected
        ((Manager.memory (fun _ => 0) tagModel).getBy "label" (.string "new"))
        (deployed.afterCalls postCalls) := by
  have hdeploy : (Client.memory fun _ => 0).deploy postDeployment Store.empty =
      .ok () (Store.empty.after
        ((Client.memory fun _ => 0).deploy postDeployment)) := by
    rfl
  have htag : tagModel ∈ postDeployment.models := by
    simp [postDeployment]
  have hpost : postModel ∈ postDeployment.models := by
    simp [postDeployment]
  have hmodels : postDeployment.Admissible := by
    constructor
    · decide
    · decide
    · simp [postDeployment, authorModel, tagModel, postModel, Model.writeSchema,
        Field.writeSchema, Schema.orAbsentIf, Schema.orAbsent,
        Schema.DistinctKeys, Schema.DistinctKeysInFields, Keyed.keys]
    · simp only [postDeployment, authorModel, tagModel, postModel,
        List.forall_mem_cons]
      simp [Reference.key, Field.Storable]
    · simp only [postDeployment, authorModel, tagModel, postModel,
        List.forall_mem_cons]
      simp [Field.related?]
  have hcalls : forall call, call ∈ postCalls ->
      call.model ∈ postDeployment.models ∧ call.operation.DistinctKeys := by
    simp [postCalls, postDeployment, Operation.DistinctKeys,
      Value.DistinctKeys, Value.DistinctKeysInEntries, Keyed.keys]
  have hreverse : Model.reverse tagModel postModel [("posts", "tags")] =
      .ok tagWithPosts := by
    rfl
  have hsound := Deployment.queries_fail_as_expected hmodels hdeploy hcalls
  have hextended := Model.ExtendedFrom.reverse (.own htag) (.own hpost) hreverse
  exact ⟨_, hdeploy, hreverse, (hsound.2 tagWithPosts hextended _).1 "2",
    (hsound.1 tagModel htag _).1 "label" (.string "new")⟩

end DocumentMapper
