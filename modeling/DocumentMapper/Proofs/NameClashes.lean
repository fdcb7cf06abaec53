import DocumentMapper.Proofs.Extensions

/-!
# Name clashes

A deployment creates collections and indexes by their names.  It answers exactly where
no name is given twice and none is taken: an index is never refused for want of its
source, as every index reads a collection that its own model has created.
-/

namespace DocumentMapper

/-!
## What can be created
-/

namespace Store

structure IndexesNew (definitions : List IndexDefinition) (store : Store) : Prop where
  names : Keyed.New IndexDefinition.name definitions store.indexes
  sources : forall definition, definition ∈ definitions ->
    Keyed.contains store.collections definition.source = true

theorem IndexesNew.front {xs ys : List IndexDefinition} {store : Store}
    (h : IndexesNew (xs ++ ys) store) : IndexesNew xs store where
  names := h.names.front
  sources definition hmem := h.sources definition (List.mem_append_left ys hmem)

theorem IndexesNew.back {xs ys : List IndexDefinition} {before after : Store}
    (h : IndexesNew (xs ++ ys) before) (hadded : IndexesAdded xs before after) :
    IndexesNew ys after where
  names := h.names.back hadded.1
  sources definition hmem := by
    rw [hadded.2.1]
    exact h.sources definition (List.mem_append_right xs hmem)

variable {clock : Clock} {scope : Scope} {before : Store}

theorem createCollection_answers {definition : CollectionDefinition}
    (h : Keyed.New CollectionDefinition.name [definition] before.collections) :
    exists value after,
      (Expr.createCollection definition).evaluate clock scope before =
          .ok value after ∧
        CollectionsAdded [definition] before after := by
  have hfresh := h.fresh definition List.mem_cons_self
  have hrun : exists value after,
      (Expr.createCollection definition).evaluate clock scope before =
        .ok value after := by
    simp [Expr.evaluate, bind, EStateM.bind, pure, EStateM.pure, createCollection,
      Keyed.contains, hfresh]
  rcases hrun with ⟨value, after, hrun⟩
  exact ⟨value, after, hrun, collectionsAdded_createCollection hrun⟩

theorem createIndex_answers {definition : IndexDefinition}
    (h : IndexesNew [definition] before) :
    exists value after,
      (Expr.createIndex definition).evaluate clock scope before =
          .ok value after ∧
        IndexesAdded [definition] before after := by
  have hfresh := h.names.fresh definition List.mem_cons_self
  have hsource := h.sources definition List.mem_cons_self
  have hrun : exists value after,
      (Expr.createIndex definition).evaluate clock scope before =
        .ok value after := by
    have hnew : Keyed.contains before.indexes definition.name = false := by
      simp [Keyed.contains, hfresh]
    simp [Expr.evaluate, bind, EStateM.bind, pure, EStateM.pure, createIndex, hnew,
      hsource]
  rcases hrun with ⟨value, after, hrun⟩
  exact ⟨value, after, hrun, indexesAdded_createIndex hrun⟩

theorem createCollections_answer {source : Type}
    {adds : source -> List CollectionDefinition} {statement : source -> Expr}
    {sources : List source} {all : List CollectionDefinition}
    (hall : sources.flatMap adds = all)
    (hstep : forall a, a ∈ sources -> forall before,
      Keyed.New CollectionDefinition.name (adds a) before.collections ->
        exists value after,
          (statement a).evaluate clock scope before = .ok value after ∧
            CollectionsAdded (adds a) before after)
    {last : Value}
    (h : Keyed.New CollectionDefinition.name all before.collections) :
    exists value after,
      Expr.evaluateBatch clock (sources.map statement) last scope before =
          .ok value after ∧
        CollectionsAdded all before after :=
  Expr.evaluateBatch_answers
    (P := fun definitions store =>
      Keyed.New CollectionDefinition.name definitions store.collections)
    CollectionsAdded.refl CollectionsAdded.trans (fun hnew => hnew.front)
    (fun hnew hadded => hnew.back hadded.1) hall hstep h

theorem createIndexes_answer {source : Type} {adds : source -> List IndexDefinition}
    {statement : source -> Expr} {sources : List source} {all : List IndexDefinition}
    (hall : sources.flatMap adds = all)
    (hstep : forall a, a ∈ sources -> forall before, IndexesNew (adds a) before ->
      exists value after,
        (statement a).evaluate clock scope before = .ok value after ∧
          IndexesAdded (adds a) before after)
    {last : Value} (h : IndexesNew all before) :
    exists value after,
      Expr.evaluateBatch clock (sources.map statement) last scope before =
          .ok value after ∧
        IndexesAdded all before after :=
  Expr.evaluateBatch_answers IndexesAdded.refl IndexesAdded.trans IndexesNew.front
    IndexesNew.back hall hstep h

end Store

/-!
## Models
-/

namespace Model

variable {clock : Clock} {scope : Scope} {model : Model} {before : Store}

theorem source_of_mem_indexes {definition : IndexDefinition}
    (h : definition ∈ model.indexes) :
    exists source, source ∈ model.collections ∧ source.name = definition.source := by
  have hown : forall {name : String} {options : FieldOptions},
      options.ownIndex? model.name name = some definition ->
        definition.source = model.name := by
    intro name options hindex
    unfold FieldOptions.ownIndex? at hindex
    split at hindex
    · cases hindex
      rfl
    · cases hindex
  rcases List.mem_flatMap.mp h with ⟨⟨name, field⟩, hfield, hdefinition⟩
  cases field with
  | scalar written shown options =>
      have hsource := hown (Option.mem_toList.mp hdefinition)
      exact ⟨_, List.mem_cons_self, hsource.symm⟩
  | reference related isOptional relation options =>
      rcases List.mem_append.mp hdefinition with hindex | hreverse
      · exact ⟨_, List.mem_cons_self, (hown (Option.mem_toList.mp hindex)).symm⟩
      · rcases Option.map_eq_some_iff.mp (Option.mem_toList.mp hreverse) with
          ⟨index, _, heq⟩
        exact ⟨_, List.mem_cons_self, by rw [<- heq]⟩
  | manyToMany related relation join singular =>
      refine ⟨{ name := join.collectionName model.name name },
        List.mem_cons_of_mem _ (mem_perField hfield (List.mem_singleton_self _)), ?_⟩
      rcases List.mem_cons.mp hdefinition with hforward | hreverse
      · rw [hforward]
        rfl
      · rcases Option.map_eq_some_iff.mp (Option.mem_toList.mp hreverse) with
          ⟨index, _, heq⟩
        rw [<- heq]
        rfl
  | reverse related index =>
      cases hdefinition

theorem construct_answers (hstored : model.derived = false)
    (h : Keyed.New CollectionDefinition.name model.collections before.collections) :
    exists value after,
      model.construct.evaluate clock scope before = .ok value after ∧
        Store.CollectionsAdded model.collections before after := by
  rw [construct_eq hstored, Expr.evaluate]
  exact Store.createCollections_answer (List.flatMap_singleton' _)
    (fun _ _ _ hnew => Store.createCollection_answers hnew) h

theorem index_answers (hstored : model.derived = false)
    (h : Store.IndexesNew model.indexes before) :
    exists value after,
      model.index.evaluate clock scope before = .ok value after ∧
        Store.IndexesAdded model.indexes before after := by
  rw [index_eq hstored, Expr.evaluate]
  exact Store.createIndexes_answer (List.flatMap_singleton' _)
    (fun _ _ _ hnew => Store.createIndex_answers hnew) h

end Model

/-!
## Deployments
-/

/-- The store has gained the collections, which are empty, and the indexes, and
nothing else of it has changed but its last timestamp. -/
structure Store.Gains (collections : List CollectionDefinition)
    (indexes : List IndexDefinition) (before after : Store) : Prop where
  collections : exists added, after.collections = before.collections ++ added ∧
    List.Forall₂ (fun definition entry =>
      entry.1 = definition.name ∧ entry.2.documents = []) collections added
  indexes : exists added, after.indexes = before.indexes ++ added ∧
    List.Forall₂ (fun definition entry =>
      entry.1 = definition.name ∧ entry.2.definition = definition) indexes added
  lastNumber : after.lastNumber = before.lastNumber

namespace Deployment

/-- No two collections and no two indexes of the deployment share a name, and no name
of them is taken. -/
structure FreeIn (deployment : Deployment) (store : Store) : Prop where
  collections :
    Keyed.New CollectionDefinition.name deployment.collections store.collections
  indexes : Keyed.New IndexDefinition.name deployment.indexes store.indexes

variable {deployment : Deployment} {clock : Clock} {store deployed : Store}

/-- A deployment has added what its stored models need, names and all. -/
theorem gains_of_deploy
    (h : (Client.memory clock).deploy deployment store = .ok () deployed) :
    deployment.stored.FreeIn store ∧
      store.Gains deployment.stored.collections deployment.stored.indexes
        deployed := by
  rcases added_of_deploy derived_of_mem_stored (deploy_stored h) with
    ⟨between, hcollections, hindexes⟩
  refine ⟨⟨hcollections.1.toNew, ?_⟩, ⟨?_, ?_, ?_⟩⟩
  · rw [<- hcollections.2.1]
    exact hindexes.1.toNew
  · rw [hindexes.2.1]
    exact hcollections.1.appended
  · rw [<- hcollections.2.1]
    exact hindexes.1.appended
  · rw [hindexes.2.2, hcollections.2.2]

/-- A deployment fails on a clash of names only. -/
theorem deploy_answers_iff :
    (exists deployed,
        (Client.memory clock).deploy deployment store = .ok () deployed) <->
      deployment.stored.FreeIn store := by
  constructor
  · rintro ⟨deployed, h⟩
    exact (gains_of_deploy h).1
  · intro hfree
    rcases Store.createCollections_answer rfl
        (fun model hmodel _ hnew =>
          Model.construct_answers (derived_of_mem_stored model hmodel) hnew)
        hfree.collections with
      ⟨first, between, hconstruct, hadded⟩
    have hnew : Store.IndexesNew deployment.stored.indexes between := by
      constructor
      · rw [hadded.2.1]
        exact hfree.indexes
      · intro definition hdefinition
        rcases List.mem_flatMap.mp hdefinition with ⟨model, hmodel, hindex⟩
        rcases Model.source_of_mem_indexes hindex with ⟨source, hsource, hname⟩
        rcases hadded.1.there source
          (List.mem_flatMap.mpr ⟨model, hmodel, hsource⟩) with ⟨stored, hfound, _⟩
        rw [<- hname]
        exact Keyed.contains_iff.mpr ⟨stored, hfound⟩
    rcases Store.createIndexes_answer rfl
        (fun model hmodel _ hnew =>
          Model.index_answers (derived_of_mem_stored model hmodel) hnew) hnew with
      ⟨second, deployed, hindex, _⟩
    exact ⟨deployed, deploy_stored_iff.mpr
      (deploy_eq_ok_iff.mpr ⟨between, ⟨first, hconstruct⟩, second, hindex⟩)⟩

end Deployment
end DocumentMapper
