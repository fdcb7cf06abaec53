import DocumentMapper.Proofs.Extensions
import DocumentMapper.Proofs.ReadBack

/-!
# Typed fields

A model that extends another may take the name of a field for a reverse side, and
then writes instances that lack the field.  So in a deployment with extended models
data need not have the shape of the model whose collection it is in.  What holds is
said of one key at a time: what is there, if anything, has the shape of the key's
schema.
-/

namespace DocumentMapper

def Document.HoldsAt (key : String) (schema : Schema) (document : Document) :
    Prop :=
  exists data, Keyed.get? document "data" = some (.document data) ∧
    (Keyed.keys data).Nodup ∧
    forall value, Keyed.get? data key = some value ->
      value ≠ .null ∧ schema.Shaped value

/-- What is admitted under a key is a null or has the shape of a schema. -/
def Document.AdmitsAt (key : String) (schema : Schema) (data : Document) : Prop :=
  (Keyed.keys data).Nodup ∧
    forall value, Keyed.get? data key = some value ->
      value = .null ∨ schema.Shaped value

def Model.AdmitsAt (key : String) (schema : Schema) (model : Model) : Prop :=
  forall field, (key, field) ∈ model.fields ->
    field.writeSchema.DistinctKeys ∧
      forall value, field.writeSchema.Shaped value ->
        value = .null ∨ schema.Shaped value

/-!
## Parsed data
-/

section

variable {model : Model} {key : String} {schema : Schema} {data parsed : Document}

theorem Schema.shaped_of_get?_parsed {fields : List (String × Schema)}
    (hnodup : (Keyed.keys fields).Nodup)
    (hdata : (Value.document data).DistinctKeys)
    (hparsed : (object fields).parseDocument data = .ok parsed) {value : Value}
    (hvalue : Keyed.get? parsed key = some value) :
    exists own, (key, own) ∈ fields ∧ (own.DistinctKeys -> own.Shaped value) := by
  rcases parseDocument_ok hparsed with ⟨hissues, heq⟩
  rw [heq, get?_shapeFields_nil hnodup, Option.bind_eq_some_iff] at hvalue
  rcases hvalue with ⟨own, hown, hshaped⟩
  have hmem := Keyed.mem_of_get? hown
  refine ⟨own, hmem, fun hdistinct => ?_⟩
  have hnone := issuesOfFields_eq_nil_iff.mp hissues (key, own) hmem
  cases hfound : Keyed.get? data key with
  | none =>
      rw [hfound] at hshaped
      cases hshaped
  | some given =>
      rw [hfound] at hshaped hnone
      rw [shapeAt] at hshaped
      split at hshaped
      · cases hshaped
      · cases hshaped
        exact shaped_shape hdistinct (hdata.of_get? hfound) hnone

theorem Model.AdmitsAt.of_create (h : model.AdmitsAt key schema)
    (hnamed : model.WellNamed) (hdata : (Value.document data).DistinctKeys)
    (hparsed : model.writeSchema.parseDocument data = .ok parsed) :
    parsed.AdmitsAt key schema := by
  refine ⟨nodup_admitted hparsed, fun value hvalue => ?_⟩
  rcases Schema.shaped_of_get?_parsed hnamed.nodup_writeFields hdata hparsed hvalue
    with ⟨own, hown, hshaped⟩
  rcases List.mem_map.mp hown with ⟨⟨name, field⟩, hfield, heq⟩
  cases heq
  rcases h field hfield with ⟨hdistinct, hadmits⟩
  exact hadmits value (hshaped hdistinct)

theorem Model.AdmitsAt.of_update (h : model.AdmitsAt key schema)
    (hnamed : model.WellNamed) (hdata : (Value.document data).DistinctKeys)
    (hparsed : model.writeSchema.relaxed.parseDocument data = .ok parsed) :
    parsed.AdmitsAt key schema := by
  have hnodup : (Keyed.keys (model.writeFields.map fun field =>
      (field.1, field.2.orMissing))).Nodup := by
    rw [Schema.keys_relaxed]
    exact hnamed.nodup_writeFields
  constructor
  · rw [(Schema.parseDocument_ok hparsed).2]
    exact Schema.nodup_keys_shapeFields List.nodup_nil
  · intro value hvalue
    rcases Schema.shaped_of_get?_parsed hnodup hdata hparsed hvalue with
      ⟨own, hown, hshaped⟩
    rcases List.mem_map.mp hown with ⟨⟨name, plain⟩, hplain, heq⟩
    cases heq
    rcases List.mem_map.mp hplain with ⟨⟨name, field⟩, hfield, heq⟩
    cases heq
    rcases h field hfield with ⟨hdistinct, hadmits⟩
    exact hadmits value
      (Schema.shaped_orMissing.mp
        (hshaped (Schema.distinctKeys_orMissing hdistinct)))

end

/-!
## Stored documents
-/

namespace Document

variable {key : String} {schema : Schema} {data patch document : Document}

theorem holdsAt_created (h : data.AdmitsAt key schema) (reference : Reference)
    (timestamp : Int) :
    HoldsAt key schema
      (Store.storedDocument reference timestamp (withoutNulls data)) := by
  refine ⟨_, rfl, nodup_keys_withoutNulls h.1, fun value hvalue => ?_⟩
  rw [get?_withoutNulls h.1, Option.bind_eq_some_iff] at hvalue
  rcases hvalue with ⟨given, hgiven, hkept⟩
  refine ⟨kept_ne_null hkept, ?_⟩
  cases h.2 given hgiven with
  | inl hnull =>
      rw [hnull] at hkept
      cases hkept
  | inr hshaped =>
      have hbefore : schema.ShapedBefore none := by
        intro before hbefore
        cases hbefore
      have hafter := Schema.shapedAfter_mergeValue hbefore hshaped
      rw [mergeValue_none, hkept] at hafter
      exact hafter

theorem holdsAt_patched (h : document.HoldsAt key schema)
    (hpatch : patch.AdmitsAt key schema) (timestamp : Int) :
    HoldsAt key schema (Store.patched document timestamp patch) := by
  rcases h with ⟨data, hdata, hnodup, hold⟩
  have hfound : Store.dataOf document = data := by
    simp [Store.dataOf, hdata, Value.document?]
  refine ⟨merge data patch, ?_, nodup_keys_merge hnodup patch, fun value hvalue => ?_⟩
  · rw [Store.patched, Keyed.get?_insert, if_pos rfl, hfound]
  · rw [get?_merge hpatch.1] at hvalue
    cases hnew : Keyed.get? patch key with
    | none =>
        rw [hnew] at hvalue
        exact hold value hvalue
    | some given =>
        rw [hnew] at hvalue
        change mergeValue (Keyed.get? data key) given = some value at hvalue
        refine ⟨mergeValue_ne_null hvalue, ?_⟩
        cases hpatch.2 given hnew with
        | inl hnull =>
            rw [hnull] at hvalue
            cases hvalue
        | inr hshaped =>
            have hbefore : schema.ShapedBefore (Keyed.get? data key) :=
              fun before hbefore => Or.inr (hold before hbefore).2
            have hafter := Schema.shapedAfter_mergeValue hbefore hshaped
            rw [hvalue] at hafter
            exact hafter

end Document

/-!
## Operations
-/

def Document.HoldsAtIn (collection key : String) (schema : Schema) (own : String)
    (document : Document) : Prop :=
  own = collection -> document.HoldsAt key schema

namespace Store

variable {deployment : Deployment} {provided store left : Store} {clock : Clock}
  {base own : Model} {key : String} {schema : Schema}

/-- All models that share a collection let such values in. -/
def AdmittedAt (deployment : Deployment) (collection key : String)
    (schema : Schema) : Prop :=
  forall model, model ∈ deployment.models -> model.name = collection ->
    model.AdmitsAt key schema

theorem Operated.holdsAt (hrooted : deployment.Rooted)
    (hnamed : forall model, model ∈ deployment.models -> model.WellNamed)
    (hfree : forall model, model ∈ deployment.models ->
      model.name ∉ Reference.reserved)
    (hprovided : deployment.stored.Provided provided)
    (hbase : base ∈ deployment.stored.models)
    (hadmitted : AdmittedAt deployment base.name key schema)
    (hown : own ∈ deployment.models) {operation : Operation}
    (hdistinct : operation.DistinctKeys)
    (hrun : store.Operated clock own operation left)
    (h : store.Holds (Document.HoldsAtIn base.name key schema)) :
    left.Holds (Document.HoldsAtIn base.name key schema) := by
  cases hrun with
  | unchanged =>
      exact h
  | created hparsed hcreate =>
      rcases createDocument_ok hcreate with ⟨_, hdocument, hleft⟩
      rw [hleft]
      apply holds_putDocument h
      intro hname
      rw [hdocument]
      exact Document.holdsAt_created
        ((hadmitted own hown hname).of_create (hnamed own hown) hdistinct hparsed)
        _ _
  | updated hparsed hupdate =>
      rcases updateDocument_ok hupdate with
        ⟨found, number, hfound, _, hdocument, hleft⟩
      rw [hleft]
      apply holds_putDocument h
      intro hname
      rw [hdocument]
      rcases mem_documentsOf_of_find? (hfree own hown) hfound with ⟨place, _, hmem⟩
      exact Document.holdsAt_patched (h _ _ hmem hname)
        ((hadmitted own hown hname).of_update (hnamed own hown) hdistinct hparsed) _
  | deleted hdelete =>
      rw [(delete_ok hdelete).2]
      exact holds_remove h _
  | linked hfield hcreate =>
      rcases createDocument_ok hcreate with ⟨_, _, hleft⟩
      rw [hleft]
      apply holds_putDocument h
      intro hname
      rcases hrooted own hown with ⟨root, hroot, hextends⟩
      have hstored := hextends.mem_fields (Keyed.mem_of_get? hfield) (by simp)
      rw [hextends.name] at hname
      exact absurd hname
        (hprovided.join_ne_name hroot hbase
          (Model.mem_perField hstored (List.mem_singleton_self _)))

/-- Along a run the collection of a stored model holds under a key what all models
that share the collection let in. -/
theorem holdsAt_afterCalls (hrooted : deployment.Rooted)
    (hnamed : forall model, model ∈ deployment.models -> model.WellNamed)
    (hfree : forall model, model ∈ deployment.models ->
      model.name ∉ Reference.reserved)
    {deployed : Store}
    (hdeploy : (Client.memory clock).deploy deployment Store.empty =
      .ok () deployed)
    {calls : List Call}
    (hcalls : forall call, call ∈ calls ->
      call.model ∈ deployment.models ∧ call.operation.DistinctKeys)
    (hbase : base ∈ deployment.stored.models)
    (hadmitted : AdmittedAt deployment base.name key schema) {entry : Nat × Document}
    (hentry : entry ∈ (deployed.afterCalls calls).documentsOf base.name) :
    entry.2.HoldsAt key schema := by
  have hroots := Deployment.deploy_stored hdeploy
  have hprovided := Deployment.provided_of_deploy Deployment.derived_of_mem_stored
    hroots
  have hrun := (afterCalls_keeps
    (fun call hcall before left _ hbefore hoperated =>
      hoperated.holdsAt hrooted hnamed hfree hprovided hbase hadmitted
        (hcalls call hcall).1 (hcalls call hcall).2 hbefore)
    (Deployment.reachable_of_deploy hdeploy).consistent
    (holds_of_deploy Deployment.derived_of_mem_stored hroots _)).2
  exact hrun base.name entry hentry rfl

theorem admittedAt_of_field (hrooted : deployment.Rooted)
    (hprovided : deployment.stored.Provided provided)
    (hbase : base ∈ deployment.stored.models)
    (hadmits : base.AdmitsAt key schema) :
    AdmittedAt deployment base.name key schema := by
  intro model hmodel hname field hfield
  rcases hrooted model hmodel with ⟨root, hroot, hextends⟩
  have hsame := hprovided.model_unique hroot hbase List.mem_cons_self
    List.mem_cons_self (hextends.name.symm.trans hname)
  rw [hsame] at hextends
  cases hextends.fields _ hfield with
  | inl hin =>
      exact hadmits field hin
  | inr hreverse =>
      rcases hreverse with ⟨related, index, heq⟩
      have hfield : field = .reverse related index := heq
      rw [hfield]
      exact ⟨trivial, fun value hvalue => Or.inl hvalue⟩

end Store
end DocumentMapper
