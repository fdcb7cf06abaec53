import DocumentMapper.Proofs.CompiledParts
import DocumentMapper.Proofs.Extensions
import DocumentMapper.Proofs.SoundQueries

/-!
# Names in requests

The names of indexes and collections are computed in two places: where a deployment
creates them, and where a request is built that uses them.  Whatever a request of a
model uses, the queries of related models at any depth included, is created by the
deployment of the models that the model extends.
-/

namespace DocumentMapper

/-!
## What a deployment creates
-/

namespace Deployment

/-- Every relationship of the models leads to one of them, or to a model that extends
them, and none of them extends another. -/
structure SelfContained (deployment : Deployment) : Prop where
  stored : forall model, model ∈ deployment.models -> model.derived = false
  declared : forall model, model ∈ deployment.models ->
    forall field, field ∈ model.fields ->
      forall related index, field.2 ≠ .reverse related index
  closed : forall model, model ∈ deployment.models ->
    forall field, field ∈ model.fields ->
      forall related, field.2.related? = some related ->
        Model.ExtendedFrom deployment.models related

/-- If the expression names an index or a collection, a statement of the deployment
creates it. -/
def Creates (deployment : Deployment) : Expr -> Prop
  | .index name =>
      exists definition, Expr.createIndex definition ∈ deployment.index.parts ∧
        definition.name = name
  | .collection name =>
      exists definition,
        Expr.createCollection definition ∈ deployment.construct.parts ∧
          definition.name = name
  | _ => True

variable {deployment : Deployment} {model : Model}

theorem creates_of_isPlain (expr : Expr) (h : expr.isPlain = true) :
    deployment.Creates expr := by
  cases expr <;> trivial

theorem mem_parts_batch {statement : Model -> Expr} {statements : List Expr}
    (hmodel : model ∈ deployment.models)
    (hbatch : statement model = .batch statements) {expr : Expr}
    (hexpr : expr ∈ statements) :
    expr ∈ (Expr.batch (deployment.models.map statement)).parts := by
  rw [Expr.parts, Expr.partsOfAll_eq_flatMap]
  refine List.mem_cons_of_mem _
    (List.mem_flatMap.mpr ⟨_, List.mem_map_of_mem hmodel, ?_⟩)
  rw [hbatch, Expr.parts, Expr.partsOfAll_eq_flatMap]
  exact List.mem_cons_of_mem _ (List.mem_flatMap.mpr ⟨expr, hexpr, expr.mem_parts_self⟩)

theorem creates_index (hstored : model.derived = false)
    (hmodel : model ∈ deployment.models) {definition : IndexDefinition}
    (h : definition ∈ model.indexes) : deployment.Creates (.index definition.name) :=
  ⟨definition,
    mem_parts_batch hmodel (Model.index_eq hstored) (List.mem_map_of_mem h),
    rfl⟩

theorem creates_collection (hstored : model.derived = false)
    (hmodel : model ∈ deployment.models) {definition : CollectionDefinition}
    (h : definition ∈ model.collections) :
    deployment.Creates (.collection definition.name) :=
  ⟨definition,
    mem_parts_batch hmodel (Model.construct_eq hstored) (List.mem_map_of_mem h),
    rfl⟩

end Deployment

theorem Field.reverseIndex_mem {field : Field} {name index : String}
    (h : field.reverseIndexName name = .ok index) (model : String) :
    exists definition, definition ∈ field.indexes model name ∧
      definition.name = index := by
  cases field with
  | reference related isOptional relation options =>
      cases hname : relation.reverseIndexName? name with
      | none =>
          simp [reverseIndexName, relation?, hname] at h
      | some found =>
          simp only [reverseIndexName, relation?, hname, Except.ok.injEq] at h
          rcases relation.reverseIndex?_eq_some hname model with
            ⟨definition, front, hreverse, hsame, _⟩
          refine ⟨definition, ?_, hsame.trans h⟩
          rw [indexes, hreverse]
          exact List.mem_append_right _ (List.mem_singleton_self definition)
  | manyToMany related relation join singular =>
      cases hname : relation.reverseIndexName? name with
      | none =>
          simp [reverseIndexName, relation?, hname] at h
      | some found =>
          simp only [reverseIndexName, relation?, hname, Except.ok.injEq] at h
          refine ⟨relation.joinIndex found (join.collectionName model name)
            (relatedKey name) (ownerKey model), ?_, h⟩
          simp [indexes, hname]
  | scalar written shown options =>
      cases h
  | reverse related index =>
      cases h

/-!
## Models that extend the deployed ones
-/

/-- The field is that of a deployed model of the name, or a reverse side whose index is
created and which leads to a model that extends the deployed ones. -/
def Deployment.Origin (deployment : Deployment) (owner : String)
    (field : String × Field) : Prop :=
  (exists base, base ∈ deployment.models ∧ base.name = owner ∧
    field ∈ base.fields) ∨
  exists related index, field.2 = .reverse related index ∧
    Model.ExtendedFrom deployment.models related ∧
    deployment.Creates (.index index)

namespace Deployment.SelfContained

variable {deployment : Deployment} {model : Model}

theorem creates_reverseIndex (hmodels : deployment.SelfContained)
    (hmodel : Model.ExtendedFrom deployment.models model) {name index : String}
    {field : Field} (hfield : model.field? name = some field)
    (hindex : field.reverseIndexName name = .ok index) :
    deployment.Creates (.index index) := by
  have hstored : forall related read, field ≠ .reverse related read := by
    rintro related read rfl
    cases hindex
  rcases hmodel.declared hfield hstored with ⟨base, hbase, _, hown⟩
  rcases Field.reverseIndex_mem hindex base.name with ⟨definition, hmem, hname⟩
  rw [<- hname]
  exact creates_index (hmodels.stored base hbase) hbase (Model.mem_perField hown hmem)

theorem origin_of_extended (hmodels : deployment.SelfContained)
    (hmodel : Model.ExtendedFrom deployment.models model) :
    forall field, field ∈ model.fields -> deployment.Origin model.name field := by
  induction hmodel with
  | own hown =>
      exact fun field hfield => Or.inl ⟨_, hown, rfl, hfield⟩
  | @reverse model other extended mapping hmodel hother hreverse ihmodel ihother =>
      have hkept := Model.reverse_keeps
        (P := fun fields => forall field, field ∈ fields ->
          deployment.Origin model.name field)
        ?_ hreverse ihmodel
      · rw [hkept.1]
        exact hkept.2
      · intro fields name remote own index hfield hindex hfields field hmem
        cases Keyed.mem_of_mem_insert hmem with
        | inl hadded =>
            exact Or.inr ⟨other, index, congrArg Prod.snd hadded, hother,
              hmodels.creates_reverseIndex hother hfield hindex⟩
        | inr hold =>
            exact hfields field hold

theorem creates_ownCollection (hmodels : deployment.SelfContained)
    (hmodel : Model.ExtendedFrom deployment.models model) :
    deployment.Creates (.collection model.name) := by
  rcases hmodel.extends_of_mem with ⟨base, hbase, hextends⟩
  rw [hextends.name]
  have hown : { name := base.name } ∈ base.collections := List.mem_cons_self
  exact creates_collection (hmodels.stored base hbase) hbase hown

/-- Every index that an instance is read from is created, those of the related models
included. -/
theorem creates_readIndexes (hmodels : deployment.SelfContained)
    (hmodel : Model.ExtendedFrom deployment.models model) :
    forall name, name ∈ model.readIndexes -> deployment.Creates (.index name) := by
  induction model with
  | step model ih =>
      intro read hread
      rw [Model.readIndexes_eq_flatMap] at hread
      rcases List.mem_flatMap.mp hread with ⟨⟨name, field⟩, hfield, hin⟩
      have hrelated : forall related, field.related? = some related ->
          Model.ExtendedFrom deployment.models related ->
            read ∈ related.readIndexes -> deployment.Creates (.index read) :=
        fun related hsome hextended => ih _ hfield related hsome hextended read
      rcases hmodels.origin_of_extended hmodel _ hfield with
        ⟨base, hbase, hname, hown⟩ | ⟨related, index, heq, hextended, hcreated⟩
      · have hclosed := hmodels.closed base hbase _ hown
        cases field with
        | scalar written shown options =>
            cases hin
        | reference related isOptional relation options =>
            exact hrelated related rfl (hclosed related rfl) hin
        | manyToMany related relation join singular =>
            rcases List.mem_cons.mp hin with heq | hdeeper
            · rw [heq, <- hname]
              have hindex : relation.joinIndex (join.forwardIndexName base.name name)
                  (join.collectionName base.name name) (ownerKey base.name)
                  (relatedKey name) ∈ base.indexes :=
                Model.mem_perField hown List.mem_cons_self
              exact creates_index (hmodels.stored base hbase) hbase hindex
            · exact hrelated related rfl (hclosed related rfl) hdeeper
        | reverse related index =>
            exact absurd rfl (hmodels.declared base hbase _ hown related index)
      · cases heq
        rcases List.mem_cons.mp hin with heq | hdeeper
        · rw [heq]
          exact hcreated
        · exact hrelated related rfl hextended hdeeper

end Deployment.SelfContained

/-!
## Requests
-/

inductive Model.Builds (model : Model) : Expr -> Prop where
  | get (id : String) : Builds model (model.getRequest id)
  | paginate (terms : List Expr) : Builds model (model.paginate none terms)
  | getBy {field : String} {term : Value} {request : Expr}
      (hrequest : model.getByRequest field term = .ok request) : Builds model request
  | paginateBy {field : String} {term : Value} {request : Expr}
      (hrequest : model.paginateByRequest field term = .ok request) :
      Builds model request
  | create {data : Document} {request : Expr}
      (hrequest : model.createRequest data = .ok request) : Builds model request
  | update {id : String} {data : Document} {request : Expr}
      (hrequest : model.updateRequest id data = .ok request) : Builds model request
  | delete (id : String) : Builds model (model.deleteRequest id)
  | link {id field related : String} {request : Expr}
      (hrequest : model.linkRequest id field related = .ok request) :
      Builds model request

namespace Deployment.SelfContained

open DocumentMapper.Expr

variable {deployment : Deployment} {model : Model}

theorem creates_dereference (hmodels : deployment.SelfContained)
    (hmodel : Model.ExtendedFrom deployment.models model) {reference : Expr}
    (h : All deployment.Creates reference) :
    All deployment.Creates (model.dereference reference) :=
  Model.all_dereference creates_of_isPlain model reference h
    (hmodels.creates_readIndexes hmodel)

theorem creates_refFromId (hmodels : deployment.SelfContained)
    (hmodel : Model.ExtendedFrom deployment.models model) (id : String) :
    All deployment.Creates (model.refFromId id) :=
  all_documentRef creates_of_isPlain (hmodels.creates_ownCollection hmodel)

theorem creates_ownIndexRequest (hmodels : deployment.SelfContained)
    (hmodel : Model.ExtendedFrom deployment.models model) {name : String}
    {field : Field} (hfield : model.field? name = some field)
    (hindex : field.options.hasIndex = true) (term : Value) :
    All deployment.Creates (model.ownIndexRequest name term) := by
  have hstored : forall related read, field ≠ .reverse related read := by
    rintro related read rfl
    cases hindex
  rcases hmodel.declared hfield hstored with ⟨base, hbase, hsame, hown⟩
  rcases Field.ownIndex_mem hindex base.name name with ⟨definition, _, hmem, hname, _⟩
  have hcreated := creates_index (hmodels.stored base hbase) hbase
    (Model.mem_perField hown hmem)
  rw [hname, <- hsame] at hcreated
  exact all_listIndex creates_of_isPlain hcreated
    (List.forall_mem_singleton.mpr (all_literal creates_of_isPlain term))
    (hmodels.creates_dereference hmodel (all_var creates_of_isPlain refVar))

theorem creates_dataParams (data : Document) :
    All deployment.Creates (Model.dataParams data) := by
  refine all_object creates_of_isPlain ?_
  simp only [partsOfEntries, List.append_nil]
  exact all_literal creates_of_isPlain (.document data)

/-- The name of every index and collection in a request of an extended model is one
that the deployment creates. -/
theorem creates_what_requests_name (hmodels : deployment.SelfContained)
    (hmodel : Model.ExtendedFrom deployment.models model) {request : Expr}
    (hrequest : model.Builds request) :
    forall part, part ∈ request.parts -> deployment.Creates part := by
  have hitem := hmodels.creates_dereference hmodel
    (all_var creates_of_isPlain refVar)
  have hcollection := hmodels.creates_ownCollection hmodel
  cases hrequest with
  | get id =>
      exact hmodels.creates_dereference hmodel (hmodels.creates_refFromId hmodel id)
  | paginate terms =>
      exact all_listCollection creates_of_isPlain hcollection hitem
  | getBy hok =>
      rcases Model.getByRequest_ok hok with ⟨own, hfield, hindex, heq⟩
      rw [heq]
      exact hmodels.creates_ownIndexRequest hmodel hfield hindex _
  | paginateBy hok =>
      rcases Model.paginateByRequest_ok hok with ⟨own, hfield, hindex, heq⟩
      rw [heq]
      exact hmodels.creates_ownIndexRequest hmodel hfield hindex _
  | create hok =>
      rcases Model.createRequest_ok hok with ⟨parsed, _, heq⟩
      rw [heq]
      simp only [parts, List.forall_mem_cons, List.forall_mem_append]
      exact ⟨trivial, ⟨hcollection, by simp⟩, creates_dataParams parsed⟩
  | update hok =>
      rcases Model.updateRequest_ok hok with ⟨parsed, _, heq⟩
      rw [heq]
      simp only [parts, List.forall_mem_cons, List.forall_mem_append]
      exact ⟨trivial, hmodels.creates_refFromId hmodel _, creates_dataParams parsed⟩
  | delete id =>
      simp only [Model.deleteRequest, parts, List.forall_mem_cons]
      exact ⟨trivial, hmodels.creates_refFromId hmodel id⟩
  | link hok =>
      rcases Model.linkRequest_ok hok with
        ⟨other, relation, join, singular, hfield, heq⟩
      rcases hmodel.declared hfield (by simp) with ⟨base, hbase, hsame, hown⟩
      have hother := hmodels.closed base hbase _ hown other rfl
      have hrows : { name := join.collectionName base.name _ } ∈ base.collections :=
        List.mem_cons_of_mem _
          (Model.mem_perField hown (List.mem_singleton_self _))
      have hcreated := creates_collection (hmodels.stored base hbase) hbase hrows
      rw [<- hsame] at hcreated
      rw [heq, JoinNames.link]
      simp only [parts, partsOfEntries, List.forall_mem_cons, List.forall_mem_append,
        List.append_nil]
      exact ⟨trivial, ⟨hcreated, by simp⟩, trivial, trivial,
        hmodels.creates_refFromId hmodel _, hmodels.creates_refFromId hother _⟩

end Deployment.SelfContained

/-!
The statement at one request: a tag is looked up by its label and read with its posts,
which are read with their tags.
-/

theorem tagWithPosts_request_names :
    exists request,
      tagWithPosts.getByRequest "label" (.string "new") = .ok request ∧
      Expr.index "Tag_by_label" ∈ request.parts ∧
      Expr.index "posts_by_tags" ∈ request.parts ∧
      Expr.index "tags_by_Post" ∈ request.parts ∧
      forall part, part ∈ request.parts -> postDeployment.Creates part := by
  have htag : tagModel ∈ postDeployment.models := by
    simp [postDeployment]
  have hpost : postModel ∈ postDeployment.models := by
    simp [postDeployment]
  have hmodels : postDeployment.SelfContained := by
    constructor
    · decide
    · simp only [postDeployment, authorModel, tagModel, postModel,
        List.forall_mem_cons]
      simp
    · have hleads : forall model, model ∈ postDeployment.models ->
          forall field, field ∈ model.fields ->
            forall related, field.2.related? = some related ->
              related ∈ [authorModel, tagModel] := by
        simp only [postDeployment, authorModel, tagModel, postModel,
          List.forall_mem_cons]
        simp [Field.related?]
      intro model hmodel field hfield related hrelated
      have hknown := hleads model hmodel field hfield related hrelated
      exact .own (List.mem_of_mem_take (i := 2) hknown)
  have hreverse : Model.reverse tagModel postModel [("posts", "tags")] =
      .ok tagWithPosts := by
    rfl
  have hrequest : tagWithPosts.getByRequest "label" (.string "new") =
      .ok (tagWithPosts.ownIndexRequest "label" (.string "new")) := by
    rfl
  refine ⟨_, hrequest, ?_, ?_, ?_,
    hmodels.creates_what_requests_name (.reverse (.own htag) (.own hpost) hreverse)
      (.getBy hrequest)⟩
  all_goals
    simp [Model.ownIndexRequest, Model.paginate, Model.dereference,
      Field.projections, Field.query, Field.path?, Expr.listIndex, Expr.listing,
      Expr.guarded, Expr.parts, Expr.partsOfAll, Expr.partsOfEntries, tagWithPosts,
      tagModel, postModel, ownIndexName, JoinNames.forwardIndexName,
      JoinNames.derived]

end DocumentMapper
