import DocumentMapper.Model.Build
import DocumentMapper.Proofs.Legible
import DocumentMapper.Proofs.TypedData

/-!
# Sound stores

What holds of the store of a deployment along every run of operations: the data of
instances is typed, the rows of a relationship link an instance of its model to one
of the related model, and every generated index has its definition.

A sound store is legible to the deployed models, and to the models that extend
them by reverse sides.
-/

namespace DocumentMapper

/-- The field is stored, and the two ends of a link are told apart by its name. -/
def Field.Storable (owner name : String) : Field -> Prop
  | .scalar _ _ _ => True
  | .reference _ _ _ _ => True
  | .manyToMany _ _ _ _ => name ≠ owner
  | .reverse _ _ => False

/-- The models are stored, they have scalar, reference and many-to-many fields only,
whose names cannot be mistaken, and the related models are among them. -/
structure Deployment.Admissible (deployment : Deployment) : Prop where
  stored : forall model, model ∈ deployment.models -> model.derived = false
  free : forall model, model ∈ deployment.models ->
    model.name ∉ Reference.reserved
  schemas : forall model, model ∈ deployment.models ->
    model.writeSchema.DistinctKeys
  fields : forall model, model ∈ deployment.models ->
    forall field, field ∈ model.fields ->
      field.1 ≠ Reference.key ∧ field.2.Storable model.name field.1
  closed : forall model, model ∈ deployment.models ->
    forall field, field ∈ model.fields ->
      forall related, field.2.related? = some related ->
        related ∈ deployment.models

/-!
## Parts of documents
-/

theorem append_ref_ne_key (name : String) : name ++ "_ref" ≠ Reference.key := by
  intro h
  have hchars := congrArg String.toList h
  rw [String.toList_append] at hchars
  have hlength := congrArg List.length hchars
  have hempty : name.toList = [] := by
    apply List.length_eq_zero_iff.mp
    simpa [Reference.key] using hlength
  rw [hempty] at hchars
  exact absurd hchars (by decide)

theorem ownerKey_ne_relatedKey {model field : String} (h : field ≠ model) :
    ownerKey model ≠ relatedKey field := by
  intro heq
  exact h ((String.append_left_inj "_ref").mp heq).symm

namespace Document

theorem at?_dataPath_of_entry {document data : Document}
    (hdata : Keyed.get? document "data" = some (.document data)) {name : String}
    (hinside : Value.entry? data name = Keyed.get? data name) :
    document.at? (dataPath name) =
      (Keyed.get? data name).bind Value.present? := by
  have hentry : Value.entry? document "data" = some (.document data) := by
    rw [Value.entry?_eq_get? (by decide) (by decide), hdata]
  unfold Document.at? Value.keySteps dataPath
  rw [List.map_cons, List.map_cons, Value.at?_cons, Value.step?, hentry,
    Option.bind_some, Value.at?_cons, Value.step?, hinside]
  rfl

theorem at?_dataPath {document data : Document}
    (hdata : Keyed.get? document "data" = some (.document data))
    (hkey : Keyed.get? data Reference.key = none) (name : String) :
    document.at? (dataPath name) =
      (Keyed.get? data name).bind Value.present? := by
  apply at?_dataPath_of_entry hdata
  simp [Value.entry?, hkey]

end Document

theorem IndexDefinition.last?_entryOf {index : IndexDefinition}
    {front : List IndexValue} {last : IndexValue}
    (h : index.values = front ++ [last]) (document : Document) :
    (index.entryOf document).last? = document.at? last.field := by
  have hvalues : index.values.isEmpty = false := by
    rw [h]
    cases front <;> rfl
  rw [entryOf, hvalues]
  show (index.valuesOf document).getLast?.bind Value.present? = _
  rw [valuesOf, h, List.map_append, List.map_singleton, List.getLast?_concat,
    Option.bind_some]
  have hpresent := Value.at?_ne_null (.document document)
    (Value.keySteps last.field)
  unfold Document.at?
  cases hfound : (Value.document document).at? (Value.keySteps last.field) with
  | none =>
      rfl
  | some value =>
      rw [hfound] at hpresent
      rw [Option.getD_some, Value.present?, if_neg]
      intro hnull
      exact hpresent (congrArg some (Value.isNull_iff.mp hnull))

/-!
## Rows of a relationship
-/

section

variable {model field : String} {owner related : Reference}

theorem linkData_eq :
    linkData model field owner related =
      Keyed.insert [(ownerKey model, owner.toValue)] (relatedKey field)
        related.toValue :=
  rfl

theorem get?_linkData_related :
    Keyed.get? (linkData model field owner related) (relatedKey field) =
      some related.toValue := by
  rw [linkData_eq, Keyed.get?_insert, if_pos rfl]

theorem get?_linkData_owner (h : field ≠ model) :
    Keyed.get? (linkData model field owner related) (ownerKey model) =
      some owner.toValue := by
  rw [linkData_eq, Keyed.get?_insert, if_neg (ownerKey_ne_relatedKey h).symm,
    Keyed.get?_cons, if_pos rfl]

theorem get?_linkData_key :
    Keyed.get? (linkData model field owner related) Reference.key = none := by
  have howner : ownerKey model ≠ Reference.key := append_ref_ne_key model
  have hrelated : relatedKey field ≠ Reference.key := append_ref_ne_key field
  rw [linkData_eq, Keyed.get?_insert, if_neg hrelated, Keyed.get?_cons,
    if_neg howner, Keyed.get?_nil]

theorem withoutNulls_linkData (h : field ≠ model) :
    Document.withoutNulls (linkData model field owner related) =
      linkData model field owner related := by
  have hrow : linkData model field owner related =
      [(ownerKey model, owner.toValue), (relatedKey field, related.toValue)] := by
    rw [linkData_eq, Keyed.insert, if_neg (ownerKey_ne_relatedKey h)]
    rfl
  rw [hrow]
  rfl

end

namespace Store

def LinkedIn (models : List Model) (collection : String)
    (document : Document) : Prop :=
  forall model, model ∈ models ->
    forall name related relation join singular,
      (name, Field.manyToMany related relation join singular) ∈ model.fields ->
      join.collectionName model.name name = collection ->
      exists id other,
        Keyed.get? document "data" =
          some (.document
            (linkData model.name name { collection := model.name, id := id }
              { collection := related.name, id := other }))

def Indexed (models : List Model) (store : Store) : Prop :=
  forall model, model ∈ models ->
    forall definition, definition ∈ model.indexes ->
      exists stored, Keyed.get? store.indexes definition.name = some stored ∧
        stored.definition = definition

structure Sound (models : List Model) (store : Store) : Prop where
  consistent : store.Consistent
  typed : store.Typed models
  linked : store.Holds (LinkedIn models)
  indexed : store.Indexed models

end Store

/-!
## Operations
-/

/-- Two relationships whose rows share a collection are the same. -/
theorem Deployment.Provided.relationship_unique {deployment : Deployment}
    {store : Store} (h : deployment.Provided store) {model other : Model}
    (hmodel : model ∈ deployment.models) (hother : other ∈ deployment.models)
    {field same : String × Field} (hfield : field ∈ model.fields)
    (hsame : same ∈ other.fields) {definition twin : CollectionDefinition}
    (hdefinition : definition ∈ field.2.collections model.name field.1)
    (htwin : twin ∈ same.2.collections other.name same.1)
    (hname : definition.name = twin.name) : model = other ∧ field = same := by
  have hequal := h.model_unique hmodel hother
    (List.mem_cons_of_mem _ (Model.mem_perField hfield hdefinition))
    (List.mem_cons_of_mem _ (Model.mem_perField hsame htwin)) hname
  refine ⟨hequal, ?_⟩
  cases hequal
  have hown := h.nodup_own hmodel
  rw [Model.collections, List.map_cons] at hown
  have hrows := (List.nodup_cons.mp hown).2
  rw [Model.perField, List.map_flatMap] at hrows
  exact Keyed.eq_of_mem_flatMap hrows hfield hsame
    (List.mem_map_of_mem hdefinition) (hname ▸ List.mem_map_of_mem htwin)

namespace Store

variable {deployment : Deployment} {provided store left : Store} {clock : Clock}
  {model : Model} {operation : Operation}

theorem indexes_remove {reference : Reference}
    (h : reference.collection ∉ Reference.reserved) :
    (store.remove reference).indexes = store.indexes := by
  have hnames := Reference.not_mem_reserved_iff.mp h
  unfold remove dropDocument
  rw [if_neg hnames.1, if_neg hnames.2]
  repeat' split
  all_goals rfl

theorem Operated.indexes_eq (hrun : store.Operated clock model operation left)
    (hfree : model.name ∉ Reference.reserved) : left.indexes = store.indexes := by
  cases hrun with
  | unchanged =>
      rfl
  | created _ hcreate =>
      rw [(createDocument_ok hcreate).2.2, putDocument_indexes]
      rfl
  | updated _ hupdate =>
      rcases updateDocument_ok hupdate with ⟨_, _, _, _, _, hleft⟩
      rw [hleft, putDocument_indexes]
      rfl
  | deleted hdelete =>
      rw [(delete_ok hdelete).2]
      exact indexes_remove hfree
  | linked _ hcreate =>
      rw [(createDocument_ok hcreate).2.2, putDocument_indexes]
      rfl

theorem linkedIn_of_name (h : deployment.Provided provided)
    (hmodel : model ∈ deployment.models) (document : Document) :
    LinkedIn deployment.models model.name document := by
  intro other hother name related relation join singular hfield hname
  exact absurd hname
    (h.join_ne_name hother hmodel
      (Model.mem_perField hfield (List.mem_singleton_self _)))

theorem Operated.linkedIn (hmodels : deployment.Admissible)
    (hprovided : deployment.Provided provided)
    (hmodel : model ∈ deployment.models)
    (hrun : store.Operated clock model operation left)
    (h : store.Holds (LinkedIn deployment.models)) :
    left.Holds (LinkedIn deployment.models) := by
  cases hrun with
  | unchanged =>
      exact h
  | created _ hcreate =>
      rw [(createDocument_ok hcreate).2.2]
      exact holds_putDocument h _ _ (linkedIn_of_name hprovided hmodel _)
  | updated _ hupdate =>
      rcases updateDocument_ok hupdate with ⟨_, _, _, _, _, hleft⟩
      rw [hleft]
      exact holds_putDocument h _ _ (linkedIn_of_name hprovided hmodel _)
  | deleted hdelete =>
      rw [(delete_ok hdelete).2]
      exact holds_remove h _
  | @linked id field target related relation join singular document left hfield
      hcreate =>
      rcases createDocument_ok hcreate with ⟨_, hdocument, hleft⟩
      rw [hleft]
      apply holds_putDocument h
      intro other hother name away kind rows one hin hname
      have hown := Keyed.mem_of_get? hfield
      have hsame := hprovided.relationship_unique hother hmodel hin hown
        (List.mem_singleton_self _) (List.mem_singleton_self _) hname
      cases hsame.1
      cases hsame.2
      refine ⟨id, target, ?_⟩
      have hfields := (hmodels.fields model hmodel _ hown).2
      rw [hdocument, withoutNulls_linkData hfields]
      rfl

theorem Operated.sound (hmodels : deployment.Admissible)
    (hprovided : deployment.Provided provided)
    (hmodel : model ∈ deployment.models) (hdistinct : operation.DistinctKeys)
    (hrun : store.Operated clock model operation left)
    (h : store.Sound deployment.models) : left.Sound deployment.models where
  consistent := hrun.change.consistent h.consistent
  typed :=
    hrun.typed (hprovided.namesApart hmodels.free) hmodels.schemas hmodel
      hdistinct h.typed
  linked := hrun.linkedIn hmodels hprovided hmodel h.linked
  indexed := by
    intro other hother definition hdefinition
    rw [hrun.indexes_eq (hmodels.free model hmodel)]
    exact h.indexed other hother definition hdefinition

theorem sound_of_deploy {clock : Clock} {deployed : Store}
    (hmodels : deployment.Admissible)
    (hdeploy : (Client.memory clock).deploy deployment Store.empty =
      .ok () deployed) : deployed.Sound deployment.models := by
  have hempty := holds_of_deploy hmodels.stored hdeploy
  refine ⟨(Deployment.reachable_of_deploy hdeploy).consistent, hempty _,
    hempty _, ?_⟩
  intro model hmodel definition hdefinition
  exact (Deployment.provided_of_deploy hmodels.stored hdeploy).indexes definition
    (List.mem_flatMap.mpr ⟨model, hmodel, hdefinition⟩)

/-- A sound store stays sound along every run of operations. -/
theorem Sound.afterCalls (hmodels : deployment.Admissible)
    (hprovided : deployment.Provided provided) {calls : List Call}
    (hcalls : forall call, call ∈ calls ->
      call.model ∈ deployment.models ∧ call.operation.DistinctKeys)
    (h : store.Sound deployment.models) :
    (store.afterCalls calls).Sound deployment.models := by
  refine (afterCalls_keeps ?_ h.consistent h).2
  intro call hcall before after _ hbefore hoperated
  exact hoperated.sound hmodels hprovided (hcalls call hcall).1
    (hcalls call hcall).2 hbefore

end Store
end DocumentMapper
