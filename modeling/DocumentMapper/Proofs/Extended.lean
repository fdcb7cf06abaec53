import DocumentMapper.Proofs.SoundStore

/-!
# Models of a sound store

A sound store is legible to every deployed model, and to every model that extends
deployed models by reverse sides.  The reverse side of a relationship is read from
the index that the relationship keeps for it, whose entries end in references into
the collection of the model that declares it.
-/

namespace DocumentMapper

theorem Value.refersTo_toValue (reference : Reference) :
    reference.toValue.RefersTo reference.collection :=
  ⟨reference.id, Reference.ofValue?_toValue reference⟩

theorem Document.get?_key_eq_none {model : Model} {data : Document}
    (h : model.writeSchema.Shaped (.document data))
    (hfields : forall field, field ∈ model.fields -> field.1 ≠ Reference.key) :
    Keyed.get? data Reference.key = none := by
  rcases h with ⟨entries, hsame, _, hdeclared, _⟩
  cases hsame
  apply Keyed.get?_eq_none_iff.mpr
  intro hmem
  rcases List.mem_map.mp (hdeclared Reference.key hmem) with
    ⟨schema, hschema, hkey⟩
  rcases List.mem_map.mp hschema with ⟨field, hfield, heq⟩
  apply hfields field hfield
  rw [<- hkey, <- heq]

/-!
## Indexes over instances
-/

theorem FieldOptions.ownIndex?_eq_some {options : FieldOptions}
    (h : options.hasIndex = true) (model field : String) :
    exists definition front, options.ownIndex? model field = some definition ∧
      definition.name = ownIndexName model field ∧ definition.source = model ∧
      definition.values = front ++ [IndexValue.ownReference] :=
  ⟨_, _, if_pos h, rfl, rfl, rfl⟩

theorem Relation.reverseIndex?_eq_some {relation : Relation}
    {field name : String} (h : relation.reverseIndexName? field = some name)
    (model : String) :
    exists definition front,
      relation.reverseIndex? model field = some definition ∧
        definition.name = name ∧ definition.source = model ∧
        definition.values = front ++ [IndexValue.ownReference] := by
  rw [reverseIndex?, h, Option.map_some]
  exact ⟨_, _, rfl, rfl, rfl, rfl⟩

theorem Field.ownIndex_mem {field : Field} (h : field.options.hasIndex = true)
    (model name : String) :
    exists definition front, definition ∈ field.indexes model name ∧
      definition.name = ownIndexName model name ∧ definition.source = model ∧
      definition.values = front ++ [IndexValue.ownReference] := by
  cases field with
  | scalar written shown options =>
      rcases options.ownIndex?_eq_some h model name with
        ⟨definition, front, hown, hindex⟩
      refine ⟨definition, front, ?_, hindex⟩
      rw [indexes, hown]
      exact List.mem_singleton_self definition
  | reference related isOptional relation options =>
      rcases options.ownIndex?_eq_some h model name with
        ⟨definition, front, hown, hindex⟩
      refine ⟨definition, front, ?_, hindex⟩
      rw [indexes, hown]
      exact List.mem_cons_self
  | manyToMany related relation join singular =>
      cases h
  | reverse related index =>
      cases h

namespace Store

variable {deployment : Deployment} {store : Store} {model : Model}

/-!
## Fields and indexes
-/

theorem Sound.pathLeads (hmodels : deployment.Admissible)
    (h : store.Sound deployment.models) (hmodel : model ∈ deployment.models)
    {name : String} {related : Model} {isOptional : Bool} {relation : Relation}
    {options : FieldOptions}
    (hfield : (name, Field.reference related isOptional relation options) ∈
      model.fields) :
    store.PathLeads model.name (dataPath name) related.name := by
  intro entry hentry held hheld
  rcases h.typed _ entry hentry model hmodel rfl with
    ⟨data, hdata, hshaped, hnull⟩
  have hkey := Document.get?_key_eq_none hshaped
    fun field hin => (hmodels.fields model hmodel field hin).1
  rw [Document.at?_dataPath hdata hkey, Option.bind_eq_some_iff] at hheld
  rcases hheld with ⟨value, hvalue, hpresent⟩
  rw [Value.eq_of_present? hpresent]
  exact (Document.referenceInto_of_field hshaped hnull hfield hvalue).ofValue?

theorem Sound.indexed_eq (h : store.Sound deployment.models)
    (hmodel : model ∈ deployment.models) {definition : IndexDefinition}
    (hdefinition : definition ∈ model.indexes) {stored : StoredIndex}
    (hstored : Keyed.get? store.indexes definition.name = some stored) :
    stored.definition = definition := by
  rcases h.indexed model hmodel definition hdefinition with
    ⟨found, hfound, hsame⟩
  rw [hstored] at hfound
  cases hfound
  exact hsame

theorem Sound.instancesLead (hmodels : deployment.Admissible)
    (h : store.Sound deployment.models) (hmodel : model ∈ deployment.models)
    {definition : IndexDefinition} (hdefinition : definition ∈ model.indexes)
    (hsource : definition.source = model.name) {front : List IndexValue}
    (hvalues : definition.values = front ++ [IndexValue.ownReference]) :
    store.IndexLeads definition.name model.name := by
  intro stored hstored entry hentry
  rw [h.indexed_eq hmodel hdefinition hstored] at hentry ⊢
  rw [hsource] at hentry
  rcases h.consistent.fits _ _ hentry with ⟨own, hstamped, hown⟩
  have hnumbered := hown (hmodels.free model hmodel)
  refine ⟨own.toValue, ?_, ?_⟩
  · rw [IndexDefinition.last?_entryOf hvalues]
    exact hstamped.at?_ref
  · rw [hnumbered]
    exact Value.refersTo_toValue (numbered model.name entry.1)

theorem Sound.rowsLead (h : store.Sound deployment.models)
    (hmodel : model ∈ deployment.models) {name : String} {related : Model}
    {relation : Relation} {join : JoinNames} {singular : Option String}
    (hfield : (name, Field.manyToMany related relation join singular) ∈
      model.fields)
    {definition : IndexDefinition} (hdefinition : definition ∈ model.indexes)
    (hsource : definition.source = join.collectionName model.name name)
    {front : List IndexValue} {goal target : String}
    (hvalues : definition.values =
      front ++ [{ field := dataPath goal, reverse := false }])
    (hgoal : forall id other, exists reference : Reference,
      Keyed.get?
          (linkData model.name name { collection := model.name, id := id }
            { collection := related.name, id := other })
          goal = some reference.toValue ∧
        reference.collection = target) :
    store.IndexLeads definition.name target := by
  intro stored hstored entry hentry
  rw [h.indexed_eq hmodel hdefinition hstored] at hentry ⊢
  rw [hsource] at hentry
  rcases h.linked _ entry hentry model hmodel name related relation join singular
    hfield rfl with ⟨id, other, hdata⟩
  rcases hgoal id other with ⟨reference, hreference, htarget⟩
  refine ⟨reference.toValue, ?_, ?_⟩
  · rw [IndexDefinition.last?_entryOf hvalues,
      Document.at?_dataPath hdata get?_linkData_key, hreference]
    rfl
  · rw [<- htarget]
    exact Value.refersTo_toValue reference

theorem Sound.fieldLeads (hmodels : deployment.Admissible)
    (h : store.Sound deployment.models) (hmodel : model ∈ deployment.models)
    {field : String × Field} (hfield : field ∈ model.fields) :
    store.FieldLeads model.name field.1 field.2 := by
  rcases field with ⟨name, own⟩
  cases own with
  | scalar written shown options =>
      trivial
  | reference related isOptional relation options =>
      exact h.pathLeads hmodels hmodel hfield
  | manyToMany related relation join singular =>
      have hdefinition : relation.joinIndex
          (join.forwardIndexName model.name name)
          (join.collectionName model.name name) (ownerKey model.name)
          (relatedKey name) ∈ model.indexes :=
        Model.mem_perField hfield List.mem_cons_self
      exact h.rowsLead hmodel hfield hdefinition rfl rfl fun id other =>
        ⟨_, get?_linkData_related, rfl⟩
  | reverse related index =>
      exact (hmodels.fields model hmodel _ hfield).2.elim

theorem Sound.ownIndexLeads (hmodels : deployment.Admissible)
    (h : store.Sound deployment.models) (hmodel : model ∈ deployment.models)
    {name : String} {field : Field} (hfield : (name, field) ∈ model.fields)
    (hindex : field.options.hasIndex = true) :
    store.IndexLeads (ownIndexName model.name name) model.name := by
  rcases Field.ownIndex_mem hindex model.name name with
    ⟨definition, front, hmem, hname, hsource, hvalues⟩
  rw [<- hname]
  exact h.instancesLead hmodels hmodel (Model.mem_perField hfield hmem) hsource hvalues

theorem Sound.reverseIndexLeads (hmodels : deployment.Admissible)
    (h : store.Sound deployment.models) (hmodel : model ∈ deployment.models)
    {name index : String} {field : Field} (hfield : (name, field) ∈ model.fields)
    (hindex : field.reverseIndexName name = .ok index) :
    store.IndexLeads index model.name := by
  cases field with
  | reference related isOptional relation options =>
      cases hname : relation.reverseIndexName? name with
      | none =>
          simp [Field.reverseIndexName, Field.relation?, hname] at hindex
      | some found =>
          simp only [Field.reverseIndexName, Field.relation?, hname,
            Except.ok.injEq] at hindex
          rcases relation.reverseIndex?_eq_some hname model.name with
            ⟨definition, front, hreverse, hsame, hsource, hvalues⟩
          have hdefinition : definition ∈ model.indexes :=
            Model.mem_perField hfield (by
              rw [Field.indexes, hreverse]
              exact List.mem_append_right _ (List.mem_singleton_self definition))
          rw [<- hindex, <- hsame]
          exact h.instancesLead hmodels hmodel hdefinition hsource hvalues
  | manyToMany related relation join singular =>
      cases hname : relation.reverseIndexName? name with
      | none =>
          simp [Field.reverseIndexName, Field.relation?, hname] at hindex
      | some found =>
          simp only [Field.reverseIndexName, Field.relation?, hname,
            Except.ok.injEq] at hindex
          have hdefinition : relation.joinIndex found
              (join.collectionName model.name name) (relatedKey name)
              (ownerKey model.name) ∈ model.indexes :=
            Model.mem_perField hfield (by simp [Field.indexes, hname])
          have hapart := (hmodels.fields model hmodel _ hfield).2
          rw [<- hindex]
          exact h.rowsLead hmodel hfield hdefinition rfl rfl fun id other =>
            ⟨_, get?_linkData_owner hapart, rfl⟩
  | _ =>
      cases hindex

/-!
## Models
-/

theorem Sound.legible (hmodels : deployment.Admissible)
    (h : store.Sound deployment.models) (hmodel : model ∈ deployment.models) :
    store.Legible model := by
  induction model with
  | step model ih =>
      refine .intro (hmodels.free model hmodel) ?_ ?_
      · intro field hfield
        exact h.fieldLeads hmodels hmodel hfield
      · intro field hfield related hrelated
        exact ih field hfield related hrelated
          (hmodels.closed model hmodel field hfield related hrelated)

def Reversible (store : Store) (model : Model) : Prop :=
  forall field, field ∈ model.fields ->
    forall index, field.2.reverseIndexName field.1 = .ok index ->
      store.IndexLeads index model.name

end Store

/-!
## Extended models
-/

/-- The models that extend given ones by reverse sides, one after the other. -/
inductive Model.ExtendedFrom (models : List Model) : Model -> Prop where
  | own {model : Model} (hmodel : model ∈ models) : ExtendedFrom models model
  | reverse {model other extended : Model} {mapping : List (String × String)}
      (hmodel : ExtendedFrom models model) (hother : ExtendedFrom models other)
      (hreverse : Model.reverse model other mapping = .ok extended) :
      ExtendedFrom models extended

theorem Model.not_reserved_of_check {model field : String}
    (h : checkFieldName model field = .ok ()) : field ∉ reservedFields := by
  unfold checkFieldName at h
  split at h
  · cases h
  · assumption

theorem Model.addReverse_ok {model other : Model}
    {fields left : List (String × Field)} {entry : String × String}
    (h : Model.addReverse model other fields entry = .ok left) :
    exists field index, other.field? entry.2 = some field ∧
      field.reverseIndexName entry.2 = .ok index ∧ entry.1 ∉ reservedFields ∧
      left = Keyed.insert fields entry.1 (.reverse other index) := by
  cases hfield : other.field? entry.2 with
  | none =>
      simp [addReverse, reverseSide, hfield, bind, Except.bind, throw, throwThe,
        MonadExceptOf.throw] at h
  | some field =>
      cases hindex : field.reverseIndexName entry.2 with
      | error misuse =>
          simp [addReverse, reverseSide, hfield, hindex, bind, Except.bind] at h
      | ok index =>
          cases hname : checkFieldName model.name entry.1 with
          | error misuse =>
              simp [addReverse, reverseSide, hfield, hindex, hname, bind,
                Except.bind, pure, Except.pure] at h
          | ok checked =>
              simp [addReverse, reverseSide, hfield, hindex, hname, bind,
                Except.bind, pure, Except.pure] at h
              exact ⟨field, index, rfl, hindex, not_reserved_of_check hname, h.symm⟩

/-- Induction over the mapping of an extension: what is said of the fields may depend
on the entries that have been added. -/
theorem Model.reverse_induction
    {P : List (String × String) -> List (String × Field) -> Prop}
    {model other extended : Model} {mapping : List (String × String)}
    (h : Model.reverse model other mapping = .ok extended)
    (hstart : P [] model.fields)
    (hstep : forall added fields entry field index, entry ∈ mapping ->
      other.field? entry.2 = some field ->
      field.reverseIndexName entry.2 = .ok index -> entry.1 ∉ reservedFields ->
      P added fields ->
        P (added ++ [entry]) (Keyed.insert fields entry.1 (.reverse other index))) :
    extended.name = model.name ∧ P mapping extended.fields := by
  have hfold : forall rest added fields left, added ++ rest = mapping ->
      rest.foldlM (Model.addReverse model other) fields = .ok left ->
        P added fields -> P mapping left := by
    intro rest
    induction rest with
    | nil =>
        intro added fields left hsplit hrun hfields
        cases hrun
        rw [List.append_nil] at hsplit
        exact hsplit ▸ hfields
    | cons entry rest ih =>
        intro added fields left hsplit hrun hfields
        rw [List.foldlM_cons] at hrun
        rcases Except.bind_eq_ok_iff.mp hrun with ⟨between, hadd, hrest⟩
        rcases addReverse_ok hadd with ⟨field, index, hfield, hindex, hfree, heq⟩
        have hentry : entry ∈ mapping := by
          rw [<- hsplit]
          exact List.mem_append_right _ List.mem_cons_self
        refine ih (added ++ [entry]) between left ?_ hrest ?_
        · rw [List.append_assoc, List.singleton_append, hsplit]
        · rw [heq]
          exact hstep added fields entry field index hentry hfield hindex hfree hfields
  rcases Except.bind_eq_ok_iff.mp h with ⟨fields, hrun, hend⟩
  cases hend
  exact ⟨rfl, hfold mapping [] model.fields fields rfl hrun hstart⟩

theorem Model.reverse_keeps {P : List (String × Field) -> Prop}
    {model other extended : Model} {mapping : List (String × String)}
    (hstep : forall fields name remote field index,
      other.field? remote = some field ->
      field.reverseIndexName remote = .ok index -> P fields ->
        P (Keyed.insert fields name (.reverse other index)))
    (h : Model.reverse model other mapping = .ok extended)
    (hstart : P model.fields) :
    extended.name = model.name ∧ P extended.fields :=
  Model.reverse_induction (P := fun _ => P) h hstart
    fun _ fields entry field index _ hfield hindex _ =>
      hstep fields entry.1 entry.2 field index hfield hindex

namespace Store

variable {deployment : Deployment} {store : Store} {model other extended : Model}

theorem Legible.reverse (hmodel : store.Legible model)
    (hother : store.Legible other) (hreversible : store.Reversible other)
    {mapping : List (String × String)}
    (h : Model.reverse model other mapping = .ok extended) :
    store.Legible extended := by
  rcases hmodel with ⟨hfree, hleads, hrelated⟩
  have hkept := Model.reverse_keeps
    (P := fun fields =>
      forall field, field ∈ fields ->
        store.FieldLeads model.name field.1 field.2 ∧
          forall related, field.2.related? = some related ->
            store.Legible related)
    ?_ h fun field hfield => ⟨hleads field hfield, hrelated field hfield⟩
  · rcases hkept with ⟨hname, hfields⟩
    refine .intro (hname ▸ hfree) ?_ ?_
    · rw [hname]
      exact fun field hfield => (hfields field hfield).1
    · exact fun field hfield => (hfields field hfield).2
  · intro fields name remote field index hfield hindex hfields added hadded
    cases Keyed.mem_of_mem_insert hadded with
    | inl heq =>
        rw [heq]
        refine ⟨hreversible _ (Keyed.mem_of_get? hfield) index hindex, ?_⟩
        intro related hsame
        cases hsame
        exact hother
    | inr hold =>
        exact hfields added hold

theorem Reversible.reverse (hmodel : store.Reversible model)
    {mapping : List (String × String)}
    (h : Model.reverse model other mapping = .ok extended) :
    store.Reversible extended := by
  have hkept := Model.reverse_keeps
    (P := fun fields =>
      forall field, field ∈ fields ->
        forall index, field.2.reverseIndexName field.1 = .ok index ->
          store.IndexLeads index model.name)
    ?_ h hmodel
  · rcases hkept with ⟨hname, hfields⟩
    unfold Reversible
    rw [hname]
    exact hfields
  · intro fields name remote field index hfield hindex hfields added hadded
    cases Keyed.mem_of_mem_insert hadded with
    | inl heq =>
        rw [heq]
        intro found hfound
        cases hfound
    | inr hold =>
        exact hfields added hold

/-- A sound store is legible to the models that extend the deployed ones. -/
theorem Sound.legible_of_extended (hmodels : deployment.Admissible)
    (h : store.Sound deployment.models)
    (hextended : Model.ExtendedFrom deployment.models extended) :
    store.Legible extended ∧ store.Reversible extended := by
  induction hextended with
  | own hmodel =>
      refine ⟨h.legible hmodels hmodel, ?_⟩
      intro field hfield index hindex
      exact h.reverseIndexLeads hmodels hmodel hfield hindex
  | reverse _ _ hreverse ihmodel ihother =>
      exact ⟨ihmodel.1.reverse ihother.1 ihother.2 hreverse,
        ihmodel.2.reverse hreverse⟩

end Store
end DocumentMapper
