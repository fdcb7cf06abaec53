import Mathlib.Data.List.Forall2
import Mathlib.Data.List.Pairwise
import DocumentMapper.Client.Memory
import DocumentMapper.Proofs.Changes

/-!
# Deployed stores

What a deployment leaves in an empty store: every collection of its models, empty
and under a name of its own, and every index with the definition that its field
gave it.

Each statement creates one thing and fails where the name is taken, so a batch
that answers has created all that its statements name, no name occurring twice.
-/

namespace DocumentMapper
namespace Keyed

variable {key item source : Type} [DecidableEq key]

structure New (name : source -> key) (added : List source)
    (entries : List (key × item)) : Prop where
  nodup : (added.map name).Nodup
  fresh : forall a, a ∈ added -> get? entries (name a) = none

/-- The second map has what is named of each source behind the entries of the
first, which had no entries under these names. -/
structure Grown (name : source -> key) (Is : source -> item -> Prop)
    (added : List source) (before after : List (key × item)) : Prop
    extends New name added before where
  appended : exists found, after = before ++ found ∧
    List.Forall₂ (fun a entry => entry.1 = name a ∧ Is a entry.2) added found
  there : forall a, a ∈ added ->
    exists found, get? after (name a) = some found ∧ Is a found
  others : forall k, k ∉ added.map name -> get? after k = get? before k

variable {name : source -> key} {Is : source -> item -> Prop}

theorem New.front {xs ys : List source} {entries : List (key × item)}
    (h : New name (xs ++ ys) entries) : New name xs entries where
  nodup := by
    have hnodup := h.nodup
    rw [List.map_append] at hnodup
    exact (List.nodup_append'.mp hnodup).1
  fresh a ha := h.fresh a (List.mem_append_left ys ha)

theorem New.back {xs ys : List source} {before after : List (key × item)}
    (h : New name (xs ++ ys) before) (hgrown : Grown name Is xs before after) :
    New name ys after := by
  have hnodup := h.nodup
  rw [List.map_append] at hnodup
  rcases List.nodup_append'.mp hnodup with ⟨_, hnames, hapart⟩
  refine ⟨hnames, ?_⟩
  intro a ha
  rw [hgrown.others (name a) fun hmem => hapart hmem (List.mem_map_of_mem ha)]
  exact h.fresh a (List.mem_append_right xs ha)

theorem Grown.refl (entries : List (key × item)) :
    Grown name Is [] entries entries where
  nodup := List.nodup_nil
  fresh a h := by cases h
  appended := ⟨[], (List.append_nil entries).symm, .nil⟩
  there a h := by cases h
  others _ _ := rfl

theorem Grown.trans {xs ys : List source}
    {before between after : List (key × item)}
    (hfirst : Grown name Is xs before between)
    (hsecond : Grown name Is ys between after) :
    Grown name Is (xs ++ ys) before after := by
  have hapart : forall x, x ∈ xs -> name x ∉ ys.map name := by
    intro x hx hmem
    rcases List.mem_map.mp hmem with ⟨y, hy, hname⟩
    rcases hfirst.there x hx with ⟨found, hfound, _⟩
    rw [<- hname, hsecond.fresh y hy] at hfound
    cases hfound
  have hnew : forall y, y ∈ ys -> name y ∉ xs.map name := by
    intro y hy hmem
    rcases List.mem_map.mp hmem with ⟨x, hx, hname⟩
    apply hapart x hx
    rw [hname]
    exact List.mem_map_of_mem hy
  refine ⟨⟨?_, ?_⟩, ?_, ?_, ?_⟩
  · rw [List.map_append]
    refine List.nodup_append'.mpr ⟨hfirst.nodup, hsecond.nodup, ?_⟩
    intro k hxs hys
    rcases List.mem_map.mp hxs with ⟨x, hx, hname⟩
    rw [<- hname] at hys
    exact hapart x hx hys
  · intro a ha
    cases List.mem_append.mp ha with
    | inl hx =>
        exact hfirst.fresh a hx
    | inr hy =>
        rw [<- hfirst.others (name a) (hnew a hy)]
        exact hsecond.fresh a hy
  · rcases hfirst.appended with ⟨front, hfront, hxs⟩
    rcases hsecond.appended with ⟨back, hback, hys⟩
    refine ⟨front ++ back, ?_, List.rel_append hxs hys⟩
    rw [hback, hfront, List.append_assoc]
  · intro a ha
    cases List.mem_append.mp ha with
    | inl hx =>
        rw [hsecond.others (name a) (hapart a hx)]
        exact hfirst.there a hx
    | inr hy =>
        exact hsecond.there a hy
  · intro k hk
    rw [List.map_append, List.mem_append, not_or] at hk
    rw [hsecond.others k hk.2, hfirst.others k hk.1]

theorem Grown.insert {a : source} {found : item} {entries : List (key × item)}
    (hfresh : get? entries (name a) = none) (hfound : Is a found) :
    Grown name Is [a] entries (Keyed.insert entries (name a) found) where
  nodup := List.nodup_singleton _
  fresh b hb := by
    rw [List.mem_singleton.mp hb]
    exact hfresh
  appended :=
    ⟨[(name a, found)], insert_of_fresh (get?_eq_none_iff.mp hfresh),
      .cons ⟨rfl, hfound⟩ .nil⟩
  there b hb := by
    rw [List.mem_singleton.mp hb, get?_insert, if_pos rfl]
    exact ⟨found, rfl, hfound⟩
  others k hk := by
    rw [get?_insert, if_neg]
    intro hname
    exact hk (List.mem_singleton.mpr hname.symm)

omit [DecidableEq key] in
theorem eq_of_mem_flatMap {names : source -> List key} {sources : List source}
    (h : (sources.flatMap names).Nodup) {a b : source} (ha : a ∈ sources)
    (hb : b ∈ sources) {k : key} (hka : k ∈ names a) (hkb : k ∈ names b) :
    a = b := by
  by_contra hne
  have hsymm : Std.Symm (Function.onFun List.Disjoint names) :=
    ⟨fun _ _ hdisjoint _ hother hone => hdisjoint hone hother⟩
  have hapart := (List.nodup_flatMap.mp h).2.forall ha hb hne
  exact hapart hka hkb

end Keyed

/-!
## Batches
-/

namespace Action

variable {item other : Type}

theorem ok_of_bind {action : Action item} {next : item -> Action other}
    {store left : Store} {b : other} (h : (action >>= next) store = .ok b left) :
    exists a between, action store = .ok a between ∧
      next a between = .ok b left := by
  simp only [bind, EStateM.bind] at h
  split at h
  · next a between hfirst => exact ⟨a, between, hfirst, h⟩
  · cases h

end Action

namespace Expr

/-- A relation that every statement establishes for what it adds is established by
the batch for all that is added. -/
theorem evaluateBatch_adds {source item : Type}
    {R : List item -> Store -> Store -> Prop} (hrefl : forall store, R [] store store)
    (htrans : forall {xs ys before between after},
      R xs before between -> R ys between after -> R (xs ++ ys) before after)
    {adds : source -> List item} {statement : source -> Expr} {clock : Clock}
    {scope : Scope} {sources : List source} {all : List item}
    (hall : sources.flatMap adds = all)
    (hstep : forall a, a ∈ sources -> forall before after value,
      (statement a).evaluate clock scope before = .ok value after ->
        R (adds a) before after)
    {last value : Value} {before after : Store}
    (h : evaluateBatch clock (sources.map statement) last scope before =
      .ok value after) :
    R all before after := by
  subst hall
  induction sources generalizing last before with
  | nil =>
      cases h
      exact hrefl _
  | cons a rest ih =>
      rw [List.map_cons, evaluateBatch] at h
      rcases Action.ok_of_bind h with ⟨answer, between, hfirst, hrest⟩
      rw [List.flatMap_cons]
      exact htrans (hstep a List.mem_cons_self _ _ _ hfirst)
        (ih (fun b hb => hstep b (List.mem_cons_of_mem _ hb)) hrest)

/-- A batch answers where every statement answers: what all statements need, the
next one has before it and the rest still have after it. -/
theorem evaluateBatch_answers {source item : Type} {P : List item -> Store -> Prop}
    {R : List item -> Store -> Store -> Prop} (hrefl : forall store, R [] store store)
    (htrans : forall {xs ys before between after},
      R xs before between -> R ys between after -> R (xs ++ ys) before after)
    (hfront : forall {xs ys store}, P (xs ++ ys) store -> P xs store)
    (hback : forall {xs ys before after}, P (xs ++ ys) before ->
      R xs before after -> P ys after)
    {adds : source -> List item} {statement : source -> Expr} {clock : Clock}
    {scope : Scope} {sources : List source} {all : List item}
    (hall : sources.flatMap adds = all)
    (hstep : forall a, a ∈ sources -> forall before, P (adds a) before ->
      exists value after,
        (statement a).evaluate clock scope before = .ok value after ∧
          R (adds a) before after)
    {last : Value} {before : Store} (h : P all before) :
    exists value after,
      evaluateBatch clock (sources.map statement) last scope before =
          .ok value after ∧
        R all before after := by
  subst hall
  induction sources generalizing last before with
  | nil =>
      exact ⟨last, before, rfl, hrefl before⟩
  | cons a rest ih =>
      rw [List.flatMap_cons] at h ⊢
      rcases hstep a List.mem_cons_self before (hfront h) with
        ⟨answer, between, hfirst, hadded⟩
      rw [List.map_cons, evaluateBatch]
      simp only [bind, EStateM.bind, hfirst]
      rcases ih (fun b hb => hstep b (List.mem_cons_of_mem _ hb)) (hback h hadded)
        with ⟨value, after, hrest, hothers⟩
      exact ⟨value, after, hrest, htrans hadded hothers⟩

end Expr

/-!
## Collections and indexes
-/

namespace Store

/-- The collections are new and empty, and nothing else has changed. -/
def CollectionsAdded (definitions : List CollectionDefinition)
    (before after : Store) : Prop :=
  Keyed.Grown CollectionDefinition.name
      (fun _ stored => stored.documents = []) definitions
      before.collections after.collections ∧
    after.indexes = before.indexes ∧ after.lastNumber = before.lastNumber

def IndexesAdded (definitions : List IndexDefinition) (before after : Store) :
    Prop :=
  Keyed.Grown IndexDefinition.name
      (fun definition stored => stored.definition = definition) definitions
      before.indexes after.indexes ∧
    after.collections = before.collections ∧ after.lastNumber = before.lastNumber

variable {clock : Clock} {scope : Scope}

theorem collectionsAdded_createCollection {definition : CollectionDefinition}
    {before after : Store} {value : Value}
    (h : (Expr.createCollection definition).evaluate clock scope before =
      .ok value after) :
    CollectionsAdded [definition] before after := by
  rw [Expr.evaluate] at h
  rcases Action.ok_of_bind h with ⟨document, between, hcreate, hend⟩
  cases hend
  rcases createCollection_ok hcreate with ⟨hfresh, hafter⟩
  rw [hafter]
  exact ⟨Keyed.Grown.insert hfresh rfl, rfl, rfl⟩

theorem indexesAdded_createIndex {definition : IndexDefinition}
    {before after : Store} {value : Value}
    (h : (Expr.createIndex definition).evaluate clock scope before =
      .ok value after) :
    IndexesAdded [definition] before after := by
  rw [Expr.evaluate] at h
  rcases Action.ok_of_bind h with ⟨document, between, hcreate, hend⟩
  cases hend
  rcases createIndex_ok hcreate with ⟨hfresh, hafter⟩
  rw [hafter]
  exact ⟨Keyed.Grown.insert hfresh rfl, rfl, rfl⟩

theorem CollectionsAdded.refl (store : Store) :
    CollectionsAdded [] store store :=
  ⟨Keyed.Grown.refl _, rfl, rfl⟩

theorem CollectionsAdded.trans {xs ys : List CollectionDefinition}
    {before between after : Store} (hfirst : CollectionsAdded xs before between)
    (hsecond : CollectionsAdded ys between after) :
    CollectionsAdded (xs ++ ys) before after :=
  ⟨hfirst.1.trans hsecond.1, hsecond.2.1.trans hfirst.2.1,
    hsecond.2.2.trans hfirst.2.2⟩

theorem IndexesAdded.refl (store : Store) : IndexesAdded [] store store :=
  ⟨Keyed.Grown.refl _, rfl, rfl⟩

theorem IndexesAdded.trans {xs ys : List IndexDefinition}
    {before between after : Store} (hfirst : IndexesAdded xs before between)
    (hsecond : IndexesAdded ys between after) :
    IndexesAdded (xs ++ ys) before after :=
  ⟨hfirst.1.trans hsecond.1, hsecond.2.1.trans hfirst.2.1,
    hsecond.2.2.trans hfirst.2.2⟩

end Store

/-!
## Models
-/

namespace Model

def collections (model : Model) : List CollectionDefinition :=
  { name := model.name } :: model.perField Field.collections

def indexes (model : Model) : List IndexDefinition :=
  model.perField Field.indexes

theorem mem_perField {item : Type}
    {contribution : String -> String -> Field -> List item} {model : Model}
    {field : String × Field} (hfield : field ∈ model.fields) {a : item}
    (h : a ∈ contribution model.name field.1 field.2) :
    a ∈ model.perField contribution :=
  List.mem_flatMap.mpr ⟨field, hfield, h⟩

theorem construct_eq {model : Model} (h : model.derived = false) :
    model.construct = .batch (model.collections.map Expr.createCollection) := by
  simp [construct, h, collections, perField, List.map_flatMap,
    Field.constructStatements]

theorem index_eq {model : Model} (h : model.derived = false) :
    model.index = .batch (model.indexes.map Expr.createIndex) := by
  simp [index, h, indexes, perField, List.map_flatMap, Field.indexStatements]

variable {clock : Clock} {scope : Scope} {before after : Store} {value : Value}

theorem collectionsAdded_construct {model : Model}
    (hstored : model.derived = false)
    (h : model.construct.evaluate clock scope before = .ok value after) :
    Store.CollectionsAdded model.collections before after := by
  rw [construct_eq hstored, Expr.evaluate] at h
  exact Expr.evaluateBatch_adds Store.CollectionsAdded.refl
    Store.CollectionsAdded.trans (List.flatMap_singleton' _)
    (fun _ _ _ _ _ hrun => Store.collectionsAdded_createCollection hrun) h

theorem indexesAdded_index {model : Model} (hstored : model.derived = false)
    (h : model.index.evaluate clock scope before = .ok value after) :
    Store.IndexesAdded model.indexes before after := by
  rw [index_eq hstored, Expr.evaluate] at h
  exact Expr.evaluateBatch_adds Store.IndexesAdded.refl Store.IndexesAdded.trans
    (List.flatMap_singleton' _)
    (fun _ _ _ _ _ hrun => Store.indexesAdded_createIndex hrun) h

end Model

/-!
# Deployments
-/

namespace Deployment

def collections (deployment : Deployment) : List CollectionDefinition :=
  deployment.models.flatMap Model.collections

def indexes (deployment : Deployment) : List IndexDefinition :=
  deployment.models.flatMap Model.indexes

/-- All that the models need is there, and no two collections share a name. -/
structure Provided (deployment : Deployment) (store : Store) : Prop where
  names : (deployment.collections.map CollectionDefinition.name).Nodup
  collections : forall definition, definition ∈ deployment.collections ->
    Keyed.contains store.collections definition.name = true
  indexes : forall definition, definition ∈ deployment.indexes ->
    exists stored, Keyed.get? store.indexes definition.name = some stored ∧
      stored.definition = definition

variable {deployment : Deployment} {clock : Clock} {deployed : Store}

theorem Provided.model_unique {store : Store} (h : deployment.Provided store)
    {model other : Model} (hmodel : model ∈ deployment.models)
    (hother : other ∈ deployment.models)
    {definition same : CollectionDefinition}
    (hdefinition : definition ∈ model.collections)
    (hsame : same ∈ other.collections) (hname : definition.name = same.name) :
    model = other := by
  have hnodup := h.names
  rw [Deployment.collections, List.map_flatMap] at hnodup
  exact Keyed.eq_of_mem_flatMap hnodup hmodel hother
    (List.mem_map_of_mem hdefinition)
    (hname ▸ List.mem_map_of_mem hsame)

theorem Provided.nodup_own {store : Store} (h : deployment.Provided store)
    {model : Model} (hmodel : model ∈ deployment.models) :
    (model.collections.map CollectionDefinition.name).Nodup := by
  have hnodup := h.names
  rw [Deployment.collections, List.map_flatMap] at hnodup
  exact (List.nodup_flatMap.mp hnodup).1 model hmodel

theorem Provided.join_ne_name {store : Store} (h : deployment.Provided store)
    {model other : Model} (hmodel : model ∈ deployment.models)
    (hother : other ∈ deployment.models) {definition : CollectionDefinition}
    (hdefinition : definition ∈ model.perField Field.collections) :
    definition.name ≠ other.name := by
  intro hname
  have hsame := h.model_unique hmodel hother
    (List.mem_cons_of_mem _ hdefinition) List.mem_cons_self hname
  have hown := h.nodup_own hmodel
  rw [Model.collections, List.map_cons] at hown
  apply (List.nodup_cons.mp hown).1
  rw [hsame, <- hname]
  rw [hsame] at hdefinition
  exact List.mem_map_of_mem hdefinition

theorem ok_of_query {expr : Expr} {store left : Store} {value : Value}
    (h : Store.query clock expr store = .ok value left) :
    expr.evaluate clock [] store = .ok value left := by
  unfold Store.query at h
  split at h
  · next hrun =>
      cases h
      exact hrun
  · cases h

theorem collectionsAdded_construct {before after : Store} {value : Value}
    (hstored : forall model, model ∈ deployment.models -> model.derived = false)
    (h : deployment.construct.evaluate clock [] before = .ok value after) :
    Store.CollectionsAdded deployment.collections before after :=
  Expr.evaluateBatch_adds Store.CollectionsAdded.refl Store.CollectionsAdded.trans
    rfl
    (fun model hmodel _ _ _ hrun =>
      Model.collectionsAdded_construct (hstored model hmodel) hrun) h

theorem indexesAdded_index {before after : Store} {value : Value}
    (hstored : forall model, model ∈ deployment.models -> model.derived = false)
    (h : deployment.index.evaluate clock [] before = .ok value after) :
    Store.IndexesAdded deployment.indexes before after :=
  Expr.evaluateBatch_adds Store.IndexesAdded.refl Store.IndexesAdded.trans rfl
    (fun model hmodel _ _ _ hrun =>
      Model.indexesAdded_index (hstored model hmodel) hrun) h

theorem added_of_deploy {store : Store}
    (hstored : forall model, model ∈ deployment.models -> model.derived = false)
    (h : (Client.memory clock).deploy deployment store = .ok () deployed) :
    exists between,
      Store.CollectionsAdded deployment.collections store between ∧
      Store.IndexesAdded deployment.indexes between deployed := by
  rcases Action.ok_of_bind h with ⟨_, between, hconstruct, hrest⟩
  rcases Action.ok_of_bind hrest with ⟨_, last, hindex, hend⟩
  cases hend
  exact ⟨between, collectionsAdded_construct hstored (ok_of_query hconstruct),
    indexesAdded_index hstored (ok_of_query hindex)⟩

theorem reachable_of_deploy (h : (Client.memory clock).deploy deployment
      Store.empty = .ok () deployed) : deployed.Reachable := by
  rcases Action.ok_of_bind h with ⟨_, between, hconstruct, hrest⟩
  rcases Action.ok_of_bind hrest with ⟨_, last, hindex, hend⟩
  cases hend
  have hfirst : Store.empty.after (Store.query clock deployment.construct) =
      between := Store.after_of_ok hconstruct
  have hsecond : between.after (Store.query clock deployment.index) = deployed :=
    Store.after_of_ok hindex
  rw [<- hsecond, <- hfirst]
  exact (Store.LeadsTo.start.query clock _).query clock _

/-- A deployment that succeeds has provided for its models. -/
theorem provided_of_deploy (hstored : forall model, model ∈ deployment.models ->
      model.derived = false)
    (h : (Client.memory clock).deploy deployment Store.empty =
      .ok () deployed) :
    deployment.Provided deployed := by
  rcases added_of_deploy hstored h with ⟨between, hcollections, hindexes⟩
  refine ⟨hcollections.1.nodup, ?_, hindexes.1.there⟩
  intro definition hmem
  rcases hcollections.1.there definition hmem with ⟨stored, hfound, _⟩
  rw [hindexes.2.1]
  exact Keyed.contains_iff.mpr ⟨stored, hfound⟩

theorem documentsOf_deployed (hstored : forall model, model ∈ deployment.models ->
      model.derived = false)
    (h : (Client.memory clock).deploy deployment Store.empty =
      .ok () deployed)
    (collection : String) : deployed.documentsOf collection = [] := by
  rcases added_of_deploy hstored h with ⟨between, hcollections, hindexes⟩
  have hsame : deployed.documentsOf collection =
      between.documentsOf collection := by
    rw [Store.documentsOf, Store.documentsOf, hindexes.2.1]
  rw [hsame]
  by_cases hname :
      collection ∈ deployment.collections.map CollectionDefinition.name
  · rcases List.mem_map.mp hname with ⟨definition, hmem, hdefinition⟩
    rcases hcollections.1.there definition hmem with ⟨stored, hfound, hempty⟩
    rw [hdefinition] at hfound
    simp [Store.documentsOf, hfound, hempty]
  · have hnone := hcollections.1.others collection hname
    simp [Store.documentsOf, hnone, Store.empty]

end Deployment
end DocumentMapper
