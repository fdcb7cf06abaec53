import DocumentMapper.Proofs.Extended

/-!
# Deployments with extended models

A model that extends another stores nothing of its own: it shares the collection
and the indexes of the model that it extends.  So a deployment creates what its
stored models need, and whatever the other models write lies where a stored one has
it.
-/

namespace DocumentMapper

/-!
## Deploying the stored models
-/

theorem Expr.evaluateBatch_stored {statement : Model -> Expr}
    (hskip : forall model, model.derived = true -> statement model = .batch [])
    {clock : Clock} {scope : Scope} {models : List Model} {last other : Value}
    {before after : Store} :
    (exists value,
        evaluateBatch clock (models.map statement) last scope before =
          .ok value after) <->
      exists value,
        evaluateBatch clock
            ((models.filter fun model => !model.derived).map statement) other scope
            before =
          .ok value after := by
  induction models generalizing last other before with
  | nil =>
      simp [evaluateBatch, pure, EStateM.pure]
  | cons model rest ih =>
      rw [List.map_cons, evaluateBatch]
      cases hderived : model.derived with
      | true =>
          rw [hskip model hderived, List.filter_cons_of_neg (by simp [hderived])]
          exact ih
      | false =>
          rw [List.filter_cons_of_pos (by simp [hderived]), List.map_cons,
            evaluateBatch]
          cases hfirst : (statement model).evaluate clock scope before with
          | ok first between =>
              simp only [bind, EStateM.bind, hfirst]
              exact ih
          | error error between =>
              simp [bind, EStateM.bind, hfirst]

namespace Deployment

def stored (deployment : Deployment) : Deployment :=
  { models := deployment.models.filter fun model => !model.derived }

variable {deployment : Deployment} {clock : Clock}

theorem mem_stored_iff {model : Model} :
    model ∈ deployment.stored.models <->
      model ∈ deployment.models ∧ model.derived = false := by
  simp [stored]

theorem derived_of_mem_stored (model : Model)
    (h : model ∈ deployment.stored.models) : model.derived = false :=
  (mem_stored_iff.mp h).2

theorem query_of_ok {expr : Expr} {store left : Store} {value : Value}
    (h : expr.evaluate clock [] store = .ok value left) :
    Store.query clock expr store = .ok value left := by
  unfold Store.query
  rw [h]

theorem deploy_eq_ok_iff {store deployed : Store} :
    (Client.memory clock).deploy deployment store = .ok () deployed <->
      exists between,
        (exists value,
          deployment.construct.evaluate clock [] store = .ok value between) ∧
        exists value,
          deployment.index.evaluate clock [] between = .ok value deployed := by
  constructor
  · intro h
    rcases Action.ok_of_bind h with ⟨first, between, hconstruct, hrest⟩
    rcases Action.ok_of_bind hrest with ⟨second, last, hindex, hend⟩
    cases hend
    exact ⟨between, ⟨first, ok_of_query hconstruct⟩, second, ok_of_query hindex⟩
  · rintro ⟨between, ⟨first, hconstruct⟩, second, hindex⟩
    have hrun : (Client.memory clock).query deployment.construct store =
        .ok first between := query_of_ok hconstruct
    have hnext : (Client.memory clock).query deployment.index between =
        .ok second deployed := query_of_ok hindex
    simp only [Client.deploy, bind, EStateM.bind, hrun, hnext]
    rfl

/-- What a deployment leaves is what the deployment of its stored models leaves. -/
theorem deploy_stored_iff {store deployed : Store} :
    (Client.memory clock).deploy deployment store = .ok () deployed <->
      (Client.memory clock).deploy deployment.stored store = .ok () deployed := by
  have hnothing : forall model : Model, model.derived = true ->
      model.construct = .batch [] ∧ model.index = .batch [] := by
    intro model hderived
    simp [Model.construct, Model.index, hderived]
  rw [deploy_eq_ok_iff, deploy_eq_ok_iff]
  refine exists_congr fun between => and_congr ?_ ?_
  · exact Expr.evaluateBatch_stored fun model h => (hnothing model h).1
  · exact Expr.evaluateBatch_stored fun model h => (hnothing model h).2

theorem deploy_stored {store deployed : Store}
    (h : (Client.memory clock).deploy deployment store = .ok () deployed) :
    (Client.memory clock).deploy deployment.stored store = .ok () deployed :=
  deploy_stored_iff.mp h

end Deployment

/-!
## What an extended model stores
-/

/-- The model has the storage of another: the fields that it does not share with it
are reverse sides, which store nothing. -/
structure Model.Extends (model base : Model) : Prop where
  name : model.name = base.name
  fields : forall field, field ∈ model.fields ->
    field ∈ base.fields ∨ exists related index, field.2 = .reverse related index

namespace Model.Extends

theorem refl (model : Model) : model.Extends model :=
  ⟨rfl, fun _ hfield => Or.inl hfield⟩

theorem reverse {model base other extended : Model}
    {mapping : List (String × String)} (h : model.Extends base)
    (hreverse : Model.reverse model other mapping = .ok extended) :
    extended.Extends base := by
  have hkept := Model.reverse_keeps
    (P := fun fields => forall field, field ∈ fields ->
      field ∈ base.fields ∨
        exists related index, field.2 = .reverse related index)
    ?_ hreverse h.fields
  · exact ⟨hkept.1.trans h.name, hkept.2⟩
  · intro fields name remote own index _ _ hfields field hfield
    cases Keyed.mem_of_mem_insert hfield with
    | inl hadded => exact Or.inr ⟨other, index, congrArg Prod.snd hadded⟩
    | inr hold => exact hfields field hold

theorem mem_fields {model base : Model} (h : model.Extends base) {name : String}
    {field : Field} (hfield : (name, field) ∈ model.fields)
    (hstored : forall related index, field ≠ .reverse related index) :
    (name, field) ∈ base.fields := by
  cases h.fields (name, field) hfield with
  | inl hown => exact hown
  | inr hreverse =>
      rcases hreverse with ⟨related, index, heq⟩
      exact absurd heq (hstored related index)

end Model.Extends

theorem Model.ExtendedFrom.extends_of_mem {models : List Model} {model : Model}
    (h : Model.ExtendedFrom models model) :
    exists base, base ∈ models ∧ model.Extends base := by
  induction h with
  | own hmodel =>
      exact ⟨_, hmodel, Model.Extends.refl _⟩
  | reverse _ _ hreverse ihmodel _ =>
      rcases ihmodel with ⟨base, hbase, hextends⟩
      exact ⟨base, hbase, hextends.reverse hreverse⟩

theorem Model.ExtendedFrom.declared {models : List Model} {model : Model}
    (h : Model.ExtendedFrom models model) {name : String} {field : Field}
    (hfield : model.field? name = some field)
    (hstored : forall related index, field ≠ .reverse related index) :
    exists base, base ∈ models ∧ model.name = base.name ∧
      (name, field) ∈ base.fields := by
  rcases h.extends_of_mem with ⟨base, hbase, hextends⟩
  exact ⟨base, hbase, hextends.name,
    hextends.mem_fields (Keyed.mem_of_get? hfield) hstored⟩

/-- Every model has storage of its own or shares that of a model which has.  Only models
that are not derived are given storage, so this says that what a model was derived from
is deployed with it; reversals of stored models are always so, see
`Deployment.rooted_of_extended`. -/
def Deployment.Rooted (deployment : Deployment) : Prop :=
  forall model, model ∈ deployment.models ->
    exists base, base ∈ deployment.stored.models ∧ model.Extends base

theorem Deployment.rooted_of_extended {deployment : Deployment}
    (h : forall model, model ∈ deployment.models ->
      Model.ExtendedFrom deployment.stored.models model) :
    deployment.Rooted :=
  fun model hmodel => (h model hmodel).extends_of_mem

/-!
## Indexes along a run
-/

/-- The indexes of a stored model are there after any run of operations, with the
definitions that they were created with. -/
theorem Deployment.matching?_afterCalls {deployment : Deployment} {clock : Clock}
    {deployed : Store}
    (hdeploy : (Client.memory clock).deploy deployment Store.empty =
      .ok () deployed)
    (hfree : forall model, model ∈ deployment.models ->
      model.name ∉ Reference.reserved)
    {calls : List Call}
    (hcalls : forall call, call ∈ calls -> call.model ∈ deployment.models)
    {base : Model} (hbase : base ∈ deployment.stored.models)
    {definition : IndexDefinition} (hdefinition : definition ∈ base.indexes)
    (terms : List Value) :
    (deployed.afterCalls calls).matching? definition.name terms =
      ((deployed.afterCalls calls).matchingDocuments? definition terms).map
        (List.map definition.entryOf) := by
  have hindexes : (deployed.afterCalls calls).indexes = deployed.indexes :=
    (Store.afterCalls_keeps (P := fun left => left.indexes = deployed.indexes)
      (fun call hcall before left _ hbefore hoperated =>
        (hoperated.indexes_eq (hfree call.model (hcalls call hcall))).trans hbefore)
      (reachable_of_deploy hdeploy).consistent rfl).2
  have hprovided := provided_of_deploy derived_of_mem_stored (deploy_stored hdeploy)
  rcases hprovided.indexes definition
    (List.mem_flatMap.mpr ⟨base, hbase, hdefinition⟩) with ⟨stored, hstored, hsame⟩
  have hkept : Keyed.get? (deployed.afterCalls calls).indexes definition.name =
      some stored := by
    rw [hindexes, hstored]
  rw [Store.matching?_of_index hkept, hsame]

end DocumentMapper
