import Mathlib.Data.List.Perm.Basic
import DocumentMapper.Proofs.Links
import DocumentMapper.Proofs.NameClashes
import DocumentMapper.Proofs.Sessions

/-!
# Teardown

A teardown names every collection and every index of a deployment once, so it drops
all of them and nothing else.  In between, sessions with the deployed models write to
the collections of the deployment only: what the store had before stays in front of
what was deployed, and is all that the teardown leaves.
-/

namespace DocumentMapper

/-!
## Beside what was there
-/

/-- The store has all that another has, and behind it collections of the given names
and the given indexes. -/
structure Store.Hosts (base : Store) (names : List String)
    (indexes : List (String × StoredIndex)) (store : Store) : Prop where
  collections : exists added, store.collections = base.collections ++ added ∧
    Keyed.keys added = names
  indexes : store.indexes = base.indexes ++ indexes

theorem Keyed.keys_eq_map {source item : Type} {name : source -> String}
    {Is : source -> String × item -> Prop} {sources : List source}
    {added : List (String × item)} (h : List.Forall₂ Is sources added)
    (hname : forall a entry, Is a entry -> entry.1 = name a) :
    keys added = sources.map name := by
  induction h with
  | nil => rfl
  | cons hhead _ ih =>
      rw [List.map_cons, <- ih, <- hname _ _ hhead]
      rfl

namespace Store

variable {base store left : Store} {names : List String}
  {indexes : List (String × StoredIndex)} {clock : Clock}

theorem Gains.hosts {collections : List CollectionDefinition}
    {definitions : List IndexDefinition}
    (h : base.Gains collections definitions store) :
    exists added, base.Hosts (collections.map CollectionDefinition.name) added store ∧
      Keyed.keys added = definitions.map IndexDefinition.name := by
  rcases h.collections with ⟨stored, hstored, hcollections⟩
  rcases h.indexes with ⟨added, hadded, hindexes⟩
  exact ⟨added,
    ⟨⟨stored, hstored, Keyed.keys_eq_map hcollections fun _ _ h => h.1⟩, hadded⟩,
    Keyed.keys_eq_map hindexes fun _ _ h => h.1⟩

theorem Hosts.insert (h : base.Hosts names indexes store)
    (hnew : forall name, name ∈ names -> name ∉ Keyed.keys base.collections)
    {collection : String} (hname : collection ∈ names) (stored : StoredCollection) :
    base.Hosts names indexes
      { store with
        collections := Keyed.insert store.collections collection stored } := by
  rcases h.collections with ⟨added, hadded, hkeys⟩
  refine ⟨⟨Keyed.insert added collection stored, ?_, ?_⟩, h.indexes⟩
  · rw [hadded]
    exact Keyed.insert_append_of_fresh (hnew collection hname) added stored
  · rw [Keyed.keys_insert_of_mem (hkeys ▸ hname), hkeys]

theorem Hosts.putDocument (h : base.Hosts names indexes store)
    (hnew : forall name, name ∈ names -> name ∉ Keyed.keys base.collections)
    {collection : String} (hname : collection ∈ names) (number : Nat)
    (document : Document) :
    base.Hosts names indexes (store.putDocument collection number document) := by
  unfold Store.putDocument
  split
  · exact h.insert hnew hname _
  · exact h

theorem Hosts.dropDocument (h : base.Hosts names indexes store)
    (hnew : forall name, name ∈ names -> name ∉ Keyed.keys base.collections)
    {collection : String} (hname : collection ∈ names) (number : Nat) :
    base.Hosts names indexes (store.dropDocument collection number) := by
  unfold Store.dropDocument
  split
  · exact h.insert hnew hname _
  · exact h

theorem Hosts.stepped (h : base.Hosts names indexes store) (number : Nat) :
    base.Hosts names indexes (store.stepped clock number) :=
  ⟨h.collections, h.indexes⟩

theorem Hosts.createDocument (h : base.Hosts names indexes store)
    (hnew : forall name, name ∈ names -> name ∉ Keyed.keys base.collections)
    {collection : String} (hname : collection ∈ names) {data document : Document}
    (hrun : createDocument clock collection data store = .ok document left) :
    base.Hosts names indexes left := by
  rw [(createDocument_ok hrun).2.2]
  exact (h.stepped _).putDocument hnew hname _ _

theorem Operated.hosts {model : Model} {operation : Operation}
    (hrun : store.Operated clock model operation left)
    (hfree : model.name ∉ Reference.reserved)
    (hnames : forall definition, definition ∈ model.collections ->
      definition.name ∈ names)
    (hnew : forall name, name ∈ names -> name ∉ Keyed.keys base.collections)
    (h : base.Hosts names indexes store) : base.Hosts names indexes left := by
  have hown : model.name ∈ names := hnames _ List.mem_cons_self
  cases hrun with
  | unchanged =>
      exact h
  | created _ hcreate =>
      exact h.createDocument hnew hown hcreate
  | updated _ hupdate =>
      rcases updateDocument_ok hupdate with ⟨_, _, _, _, _, hleft⟩
      rw [hleft]
      exact (h.stepped _).putDocument hnew hown _ _
  | deleted hdelete =>
      rw [(delete_ok hdelete).2]
      rcases Reference.not_mem_reserved_iff.mp hfree with ⟨hcollections, hindexes⟩
      unfold remove
      rw [if_neg hcollections, if_neg hindexes]
      split
      · exact h.dropDocument hnew hown _
      · exact h
  | linked hfield hcreate =>
      have hrows := hnames _ (List.mem_cons_of_mem _
        (Model.mem_perField (Keyed.mem_of_get? hfield) (List.mem_singleton_self _)))
      exact h.createDocument hnew hrows hcreate

end Store

/-!
## Dropping definitions
-/

theorem Reference.eq_of_mem_reserved {reference : Reference}
    (h : reference.collection ∈ Reference.reserved) :
    exists name, reference = ofCollection name ∨ reference = ofIndex name := by
  rcases reference with ⟨collection, id⟩
  have hnames : collection = collections ∨ collection = indexes := by
    simpa [reserved] using h
  rcases hnames with rfl | rfl
  · exact ⟨id, Or.inl rfl⟩
  · exact ⟨id, Or.inr rfl⟩

def Expr.drop (reference : Reference) : Expr :=
  .delete
    (if reference.collection = Reference.indexes then .index reference.id
      else .collection reference.id)

namespace Store

/-- The references name definitions, each of them once, and all are there. -/
structure DefinitionsThere (references : List Reference) (store : Store) : Prop where
  nodup : references.Nodup
  reserved : forall reference, reference ∈ references ->
    reference.collection ∈ Reference.reserved
  there : forall reference, reference ∈ references ->
    (store.find? reference).isSome = true

structure DefinitionsDropped (references : List Reference) (before after : Store) :
    Prop where
  collections : after.collections =
    before.collections.filter fun entry =>
      Reference.ofCollection entry.1 ∉ references
  indexes : after.indexes =
    before.indexes.filter fun entry => Reference.ofIndex entry.1 ∉ references

theorem DefinitionsThere.front {xs ys : List Reference} {store : Store}
    (h : DefinitionsThere (xs ++ ys) store) : DefinitionsThere xs store where
  nodup := (List.nodup_append'.mp h.nodup).1
  reserved reference hmem := h.reserved reference (List.mem_append_left ys hmem)
  there reference hmem := h.there reference (List.mem_append_left ys hmem)

theorem find?_ofCollection (store : Store) (name : String) :
    store.find? (Reference.ofCollection name) =
      (Keyed.get? store.collections name).map fun stored =>
        collectionDocument name stored.timestamp :=
  rfl

theorem find?_ofIndex (store : Store) (name : String) :
    store.find? (Reference.ofIndex name) =
      (Keyed.get? store.indexes name).map indexDocument :=
  rfl

theorem DefinitionsDropped.find?_isSome {references : List Reference}
    {before after : Store} (h : DefinitionsDropped references before after)
    {reference : Reference} (hreserved : reference.collection ∈ Reference.reserved)
    (hkept : reference ∉ references) :
    (after.find? reference).isSome = (before.find? reference).isSome := by
  rcases Reference.eq_of_mem_reserved hreserved with ⟨name, rfl | rfl⟩
  · have hget := Keyed.get?_filter
      (fun name => decide (Reference.ofCollection name ∉ references))
      before.collections name
    rw [if_pos (decide_eq_true hkept)] at hget
    rw [find?_ofCollection, find?_ofCollection, Option.isSome_map, Option.isSome_map,
      h.collections, hget]
  · have hget := Keyed.get?_filter
      (fun name => decide (Reference.ofIndex name ∉ references))
      before.indexes name
    rw [if_pos (decide_eq_true hkept)] at hget
    rw [find?_ofIndex, find?_ofIndex, Option.isSome_map, Option.isSome_map,
      h.indexes, hget]

theorem DefinitionsThere.back {xs ys : List Reference} {before after : Store}
    (h : DefinitionsThere (xs ++ ys) before)
    (hdropped : DefinitionsDropped xs before after) : DefinitionsThere ys after := by
  rcases List.nodup_append'.mp h.nodup with ⟨_, hnodup, hapart⟩
  refine ⟨hnodup, fun reference hmem =>
    h.reserved reference (List.mem_append_right xs hmem), ?_⟩
  intro reference hmem
  rw [hdropped.find?_isSome (h.reserved reference (List.mem_append_right xs hmem))
    fun hfirst => hapart hfirst hmem]
  exact h.there reference (List.mem_append_right xs hmem)

theorem DefinitionsDropped.refl (store : Store) :
    DefinitionsDropped [] store store := by
  constructor <;> simp

theorem DefinitionsDropped.trans {xs ys : List Reference}
    {before between after : Store} (hfirst : DefinitionsDropped xs before between)
    (hsecond : DefinitionsDropped ys between after) :
    DefinitionsDropped (xs ++ ys) before after := by
  have hboth : forall reference : Reference,
      (decide (reference ∉ ys) && decide (reference ∉ xs)) =
        decide (reference ∉ xs ++ ys) := by
    intro reference
    simp [Bool.and_comm]
  constructor
  · rw [hsecond.collections, hfirst.collections, List.filter_filter]
    exact List.filter_congr fun entry _ => hboth _
  · rw [hsecond.indexes, hfirst.indexes, List.filter_filter]
    exact List.filter_congr fun entry _ => hboth _

variable {clock : Clock} {scope : Scope} {before : Store}

theorem definitionsDropped_remove {reference : Reference}
    (h : reference.collection ∈ Reference.reserved) :
    DefinitionsDropped [reference] before (before.remove reference) := by
  have hapart : Reference.indexes ≠ Reference.collections := by decide
  rcases Reference.eq_of_mem_reserved h with ⟨name, rfl | rfl⟩
  · refine ⟨List.filter_congr fun entry _ => ?_, (List.filter_eq_self.mpr ?_).symm⟩
    · by_cases hname : entry.1 = name <;> simp [Reference.ofCollection, hname]
    · simp [Reference.ofCollection, Reference.ofIndex, hapart]
  · refine ⟨(List.filter_eq_self.mpr ?_).symm, List.filter_congr fun entry _ => ?_⟩
    · simp [Reference.ofCollection, Reference.ofIndex, hapart.symm]
    · by_cases hname : entry.1 = name <;> simp [Reference.ofIndex, hname]

theorem evaluate_drop {reference : Reference}
    (h : reference.collection ∈ Reference.reserved) :
    (Expr.drop reference).evaluate clock scope =
      (do
        let document <- delete reference
        pure (.document document)) := by
  rcases Reference.eq_of_mem_reserved h with ⟨name, rfl | rfl⟩ <;> rfl

theorem drop_answers {reference : Reference}
    (h : DefinitionsThere [reference] before) :
    exists value after,
      (Expr.drop reference).evaluate clock scope before = .ok value after ∧
        DefinitionsDropped [reference] before after := by
  have hreserved := h.reserved reference List.mem_cons_self
  rcases Option.isSome_iff_exists.mp (h.there reference List.mem_cons_self) with
    ⟨document, hfound⟩
  refine ⟨.document document, before.remove reference, ?_,
    definitionsDropped_remove hreserved⟩
  rw [evaluate_drop hreserved]
  simp [bind, EStateM.bind, pure, EStateM.pure, delete, hfound]

theorem dropAll_answers {source : Type} {drops : source -> List Reference}
    {statement : source -> Expr} {sources : List source} {all : List Reference}
    (hall : sources.flatMap drops = all)
    (hstep : forall a, a ∈ sources -> forall before,
      DefinitionsThere (drops a) before ->
        exists value after,
          (statement a).evaluate clock scope before = .ok value after ∧
            DefinitionsDropped (drops a) before after)
    {last : Value} (h : DefinitionsThere all before) :
    exists value after,
      Expr.evaluateBatch clock (sources.map statement) last scope before =
          .ok value after ∧
        DefinitionsDropped all before after :=
  Expr.evaluateBatch_answers DefinitionsDropped.refl DefinitionsDropped.trans
    DefinitionsThere.front DefinitionsThere.back hall hstep h

end Store

/-!
## What a deployment drops
-/

def Field.dropped (model name : String) (field : Field) : List Reference :=
  (field.indexes model name).map (fun index => Reference.ofIndex index.name) ++
    (field.collections model name).map fun collection =>
      Reference.ofCollection collection.name

theorem Field.deconstructStatements_eq (model name : String) (field : Field) :
    field.deconstructStatements model name =
      (field.dropped model name).map Expr.drop := by
  have hown : forall options : FieldOptions,
      dropIndex? (if options.hasIndex then some (ownIndexName model name) else none) =
        ((options.ownIndex? model name).toList.map fun index =>
          Reference.ofIndex index.name).map Expr.drop := by
    intro options
    unfold FieldOptions.ownIndex?
    split <;> rfl
  cases field with
  | scalar written shown options =>
      rw [deconstructStatements, dropped, hown]
      simp [indexes, collections]
  | reference related isOptional relation options =>
      rw [deconstructStatements, dropped, hown]
      cases hreverse : relation.reverseIndexName? name <;>
        simp [indexes, collections, Relation.reverseIndex?, hreverse, dropIndex?,
          Expr.drop, Reference.ofIndex]
  | manyToMany related relation join singular =>
      have hapart : Reference.collections ≠ Reference.indexes := by decide
      rw [deconstructStatements, dropped]
      cases hreverse : relation.reverseIndexName? name <;>
        simp [indexes, collections, Relation.joinIndex, hreverse, dropIndex?,
          Expr.drop, Reference.ofIndex, Reference.ofCollection, hapart]
  | reverse related index =>
      rfl

namespace Model

def dropped (model : Model) : List Reference :=
  model.perField Field.dropped ++ [Reference.ofCollection model.name]

theorem deconstruct_eq {model : Model} (h : model.derived = false) :
    model.deconstruct = .batch (model.dropped.map Expr.drop) := by
  have hapart : Reference.collections ≠ Reference.indexes := by decide
  simp [deconstruct, h, dropped, perField, List.map_flatMap,
    Field.deconstructStatements_eq, Expr.drop, Reference.ofCollection, hapart]

theorem deconstruct_answers {model : Model} {clock : Clock} {scope : Scope}
    {before : Store} (hstored : model.derived = false)
    (h : Store.DefinitionsThere model.dropped before) :
    exists value after,
      model.deconstruct.evaluate clock scope before = .ok value after ∧
        Store.DefinitionsDropped model.dropped before after := by
  rw [deconstruct_eq hstored, Expr.evaluate]
  exact Store.dropAll_answers (List.flatMap_singleton' _)
    (fun _ _ _ hthere => Store.drop_answers hthere) h

theorem dropped_perm (model : Model) :
    model.dropped.Perm
      (model.indexes.map (fun index => Reference.ofIndex index.name) ++
        model.collections.map fun collection =>
          Reference.ofCollection collection.name) := by
  have hfields : (model.perField Field.dropped).Perm
      (model.indexes.map (fun index => Reference.ofIndex index.name) ++
        (model.perField Field.collections).map fun collection =>
          Reference.ofCollection collection.name) := by
    simp only [indexes, perField, List.map_flatMap]
    exact (List.flatMap_append_perm _ _ _).symm
  rw [dropped, collections, List.map_cons]
  refine (hfields.append_right _).trans ?_
  rw [List.append_assoc]
  exact List.perm_append_comm.append_left _

end Model

namespace Deployment

def dropped (deployment : Deployment) : List Reference :=
  deployment.models.reverse.flatMap Model.dropped

variable {deployment : Deployment} {clock : Clock} {store : Store}

theorem dropped_perm :
    deployment.dropped.Perm
      (deployment.indexes.map (fun index => Reference.ofIndex index.name) ++
        deployment.collections.map fun collection =>
          Reference.ofCollection collection.name) := by
  rw [indexes, collections, List.map_flatMap, List.map_flatMap]
  refine ((List.reverse_perm _).flatMap fun model _ => model.dropped_perm).trans ?_
  exact (List.flatMap_append_perm _ _ _).symm

theorem nodup_dropped (h : deployment.FreeIn store) : deployment.dropped.Nodup := by
  have hindexes : (deployment.indexes.map fun index =>
      Reference.ofIndex index.name).Nodup := by
    have hnames := h.indexes.nodup.map
      (f := Reference.ofIndex) fun _ _ heq => congrArg Reference.id heq
    rwa [List.map_map] at hnames
  have hcollections : (deployment.collections.map fun collection =>
      Reference.ofCollection collection.name).Nodup := by
    have hnames := h.collections.nodup.map
      (f := Reference.ofCollection) fun _ _ heq => congrArg Reference.id heq
    rwa [List.map_map] at hnames
  refine dropped_perm.nodup_iff.mpr
    (List.nodup_append'.mpr ⟨hindexes, hcollections, ?_⟩)
  intro reference hindex hcollection
  rcases List.mem_map.mp hindex with ⟨index, _, hfirst⟩
  rcases List.mem_map.mp hcollection with ⟨collection, _, hsecond⟩
  have hapart : Reference.indexes ≠ Reference.collections := by decide
  exact hapart (congrArg Reference.collection (hfirst.trans hsecond.symm))

theorem ofCollection_mem_dropped_iff {name : String} :
    Reference.ofCollection name ∈ deployment.dropped <->
      name ∈ deployment.collections.map CollectionDefinition.name := by
  have hapart : Reference.indexes ≠ Reference.collections := by decide
  rw [dropped_perm.mem_iff]
  simp [Reference.ofIndex, Reference.ofCollection, hapart]

theorem ofIndex_mem_dropped_iff {name : String} :
    Reference.ofIndex name ∈ deployment.dropped <->
      name ∈ deployment.indexes.map IndexDefinition.name := by
  have hapart : Reference.collections ≠ Reference.indexes := by decide
  rw [dropped_perm.mem_iff]
  simp [Reference.ofIndex, Reference.ofCollection, hapart]

variable {base : Store} {added : List (String × StoredIndex)}

/-- What a deployment drops is there as long as the store hosts it. -/
theorem definitionsThere (hfree : deployment.FreeIn base)
    (hhosts : base.Hosts (deployment.collections.map CollectionDefinition.name)
      added store)
    (hadded : Keyed.keys added = deployment.indexes.map IndexDefinition.name) :
    store.DefinitionsThere deployment.dropped := by
  have hreserved : forall reference, reference ∈ deployment.dropped ->
      reference.collection ∈ Reference.reserved := by
    intro reference hmem
    rcases List.mem_append.mp (dropped_perm.mem_iff.mp hmem) with hindex | hcollection
    · rcases List.mem_map.mp hindex with ⟨index, _, rfl⟩
      exact List.mem_cons_of_mem _ List.mem_cons_self
    · rcases List.mem_map.mp hcollection with ⟨collection, _, rfl⟩
      exact List.mem_cons_self
  refine ⟨nodup_dropped hfree, hreserved, ?_⟩
  intro reference hmem
  rcases Reference.eq_of_mem_reserved (hreserved reference hmem) with
    ⟨name, rfl | rfl⟩
  · rcases hhosts.collections with ⟨stored, hstored, hkeys⟩
    have hname : name ∈ Keyed.keys store.collections := by
      rw [hstored, Keyed.keys_append, hkeys]
      exact List.mem_append_right _ (ofCollection_mem_dropped_iff.mp hmem)
    rw [Store.find?_ofCollection, Option.isSome_map]
    exact Keyed.contains_of_mem_keys hname
  · have hname : name ∈ Keyed.keys store.indexes := by
      rw [hhosts.indexes, Keyed.keys_append, hadded]
      exact List.mem_append_right _ (ofIndex_mem_dropped_iff.mp hmem)
    rw [Store.find?_ofIndex, Option.isSome_map]
    exact Keyed.contains_of_mem_keys hname

theorem deconstruct_of_hosts
    (hstored : forall model, model ∈ deployment.models -> model.derived = false)
    (hfree : deployment.FreeIn base)
    (hhosts : base.Hosts (deployment.collections.map CollectionDefinition.name)
      added store)
    (hadded : Keyed.keys added = deployment.indexes.map IndexDefinition.name) :
    exists value left,
      deployment.deconstruct.evaluate clock [] store = .ok value left ∧
        left.collections = base.collections ∧ left.indexes = base.indexes := by
  rcases Store.dropAll_answers rfl
      (fun model hmodel _ hthere =>
        Model.deconstruct_answers (hstored model (List.mem_reverse.mp hmodel)) hthere)
      (definitionsThere hfree hhosts hadded) with ⟨value, left, hrun, hdropped⟩
  refine ⟨value, left, hrun, ?_, ?_⟩
  · rcases hhosts.collections with ⟨stored, hcollections, hkeys⟩
    rw [hdropped.collections, hcollections]
    apply Keyed.filter_append_eq_front
      fun name => decide (Reference.ofCollection name ∉ deployment.dropped)
    · intro name hname
      rw [decide_eq_true_eq, ofCollection_mem_dropped_iff]
      intro hmem
      rcases List.mem_map.mp hmem with ⟨definition, hdefinition, heq⟩
      exact Keyed.get?_eq_none_iff.mp
        (hfree.collections.fresh definition hdefinition) (heq ▸ hname)
    · intro name hname
      rw [decide_eq_false_iff_not, not_not, ofCollection_mem_dropped_iff, <- hkeys]
      exact hname
  · rw [hdropped.indexes, hhosts.indexes]
    apply Keyed.filter_append_eq_front
      fun name => decide (Reference.ofIndex name ∉ deployment.dropped)
    · intro name hname
      rw [decide_eq_true_eq, ofIndex_mem_dropped_iff]
      intro hmem
      rcases List.mem_map.mp hmem with ⟨definition, hdefinition, heq⟩
      exact Keyed.get?_eq_none_iff.mp
        (hfree.indexes.fresh definition hdefinition) (heq ▸ hname)
    · intro name hname
      rw [decide_eq_false_iff_not, not_not, ofIndex_mem_dropped_iff, <- hadded]
      exact hname

/-- Sessions with the deployed models write to what was deployed. -/
theorem Run.hosts (hrun : deployment.Run deployed store) (hfree : deployment.FreeIn base)
    (hnames : forall model, model ∈ deployment.models ->
      model.name ∉ Reference.reserved)
    (h : base.Hosts (deployment.collections.map CollectionDefinition.name) added
      deployed) :
    base.Hosts (deployment.collections.map CollectionDefinition.name) added store := by
  refine hrun.keeps (fun model hmodel clock operation before left hhosts hoperated =>
    hoperated.hosts (hnames model hmodel) ?_ ?_ hhosts) h
  · intro definition hdefinition
    exact List.mem_map_of_mem (List.mem_flatMap.mpr ⟨model, hmodel, hdefinition⟩)
  · intro name hname
    rcases List.mem_map.mp hname with ⟨definition, hdefinition, heq⟩
    rw [<- heq]
    exact Keyed.get?_eq_none_iff.mp (hfree.collections.fresh definition hdefinition)

theorem deconstruct_stored_iff {left : Store} :
    (exists value, deployment.deconstruct.evaluate clock [] store = .ok value left) <->
      exists value,
        deployment.stored.deconstruct.evaluate clock [] store = .ok value left := by
  have hnothing : forall model : Model, model.derived = true ->
      model.deconstruct = .batch [] := by
    intro model hderived
    simp [Model.deconstruct, hderived]
  rw [deconstruct, deconstruct, stored, <- List.filter_reverse, Expr.evaluate,
    Expr.evaluate]
  exact Expr.evaluateBatch_stored hnothing

/-- A deployment fails on a clash of names only and adds what its stored models need;
the teardown takes exactly that away again, whatever sessions with the stored models
have written in between. -/
theorem teardown_undoes_deploy (deployment : Deployment) (clock : Clock)
    (store : Store) :
    ((exists deployed,
        (Client.memory clock).deploy deployment store = .ok () deployed) <->
      deployment.stored.FreeIn store) ∧
    forall deployed, (Client.memory clock).deploy deployment store = .ok () deployed ->
      store.Gains deployment.stored.collections deployment.stored.indexes deployed ∧
      ((forall model, model ∈ deployment.models -> model.name ∉ Reference.reserved) ->
        forall used, deployment.stored.Run deployed used -> forall later : Clock,
          exists left,
            (Client.memory later).teardown deployment used = .ok () left ∧
              left.collections = store.collections ∧
              left.indexes = store.indexes) := by
  refine ⟨deploy_answers_iff, ?_⟩
  intro deployed hdeploy
  rcases gains_of_deploy hdeploy with ⟨hfree, hgains⟩
  refine ⟨hgains, ?_⟩
  intro hnames used hrun later
  rcases hgains.hosts with ⟨added, hhosts, hadded⟩
  have hused := hrun.hosts hfree
    (fun model hmodel => hnames model (mem_stored_iff.mp hmodel).1) hhosts
  rcases deconstruct_of_hosts derived_of_mem_stored hfree hused hadded with
    ⟨value, left, hdeconstruct, hsame⟩
  rcases deconstruct_stored_iff.mpr ⟨value, hdeconstruct⟩ with ⟨answer, hteardown⟩
  refine ⟨left, ?_, hsame⟩
  have hquery : (Client.memory later).query deployment.deconstruct used =
      .ok answer left := query_of_ok hteardown
  simp only [Client.teardown, bind, EStateM.bind, hquery]
  rfl

end Deployment

/-!
The example: music is deployed beside an archive, a song and a playlist are created and
linked, and the teardown leaves the archive with its document.
-/

def archiveStore : Store :=
  Store.empty.after
    (Store.query (fun _ => 0)
      (.batch
        [.createCollection { name := "Archive" },
          .create (.collection "Archive")
            (Model.dataParams [("text", .string "kept")])]))

def archiveWithMusic : Store :=
  archiveStore.after ((Client.memory fun _ => 0).deploy musicDeployment)

def songManager : Manager Store :=
  Manager.memory (fun _ => 0) songModel

def playlistManager : Manager Store :=
  Manager.memory (fun _ => 0) playlistModel

def archiveWithSongs : Store :=
  ((archiveWithMusic.after (songManager.create [("title", .string "Elm")])).after
      (playlistManager.create [])).after
    (playlistManager.link "3" "songs" "2")

theorem Deployment.teardown_undoes_deploy_music :
    Keyed.keys (archiveStore.documentsOf "Archive") = [1] ∧
      Keyed.keys (archiveWithSongs.documentsOf "entries") = [4] ∧
      archiveStore.Gains musicDeployment.stored.collections
        musicDeployment.stored.indexes archiveWithMusic ∧
      exists left,
        (Client.memory fun _ => 0).teardown musicDeployment archiveWithSongs =
            .ok () left ∧
          left.collections = archiveStore.collections ∧
          left.indexes = archiveStore.indexes := by
  have hdeploy : (Client.memory fun _ => 0).deploy musicDeployment archiveStore =
      .ok () archiveWithMusic := by
    rfl
  have hsong : songModel ∈ musicDeployment.stored.models := by
    simp [Deployment.stored, musicDeployment, songModel]
  have hlist : playlistModel ∈ musicDeployment.stored.models := by
    simp [Deployment.stored, musicDeployment, playlistModel]
  have hrun : musicDeployment.stored.Run archiveWithMusic archiveWithSongs :=
    ((Deployment.Run.start.session hsong (.create _)).session hlist
      (.create _)).session hlist (.link _ _ _)
  have hentries : Keyed.keys (archiveWithSongs.documentsOf "entries") = [4] := by
    with_unfolding_all rfl
  rcases (Deployment.teardown_undoes_deploy musicDeployment (fun _ => 0)
      archiveStore).2 archiveWithMusic hdeploy with ⟨hgains, hteardown⟩
  exact ⟨by rfl, hentries, hgains,
    hteardown (by decide) archiveWithSongs hrun fun _ => 0⟩

end DocumentMapper
