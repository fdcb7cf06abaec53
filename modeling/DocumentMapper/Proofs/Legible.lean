import DocumentMapper.Proofs.Consistency
import DocumentMapper.Proofs.Reader
import DocumentMapper.Proofs.RowOrder

/-!
# Legible models

A store is legible to a model when what the fields of the model lead to are
references into the collections of the related models, at every depth.  Reading an
instance out of such a store may miss a document or stop at rows that cannot be sorted,
and never meets anything malformed.
-/

namespace DocumentMapper

def Field.related? : Field -> Option Model
  | .scalar _ _ _ => none
  | .reference related _ _ _ => some related
  | .manyToMany related _ _ _ => some related
  | .reverse related _ => some related

/-- Induction over a model, the models that its fields lead to being known. -/
@[induction_eliminator] theorem Model.induction {motive : Model -> Prop}
    (step : forall model,
      (forall field, field ∈ model.fields ->
        forall related, field.2.related? = some related -> motive related) ->
      motive model)
    (model : Model) : motive model :=
  @Model.rec motive
    (fun field => forall related, field.related? = some related -> motive related)
    (fun fields => forall field, field ∈ fields ->
      forall related, field.2.related? = some related -> motive related)
    (fun field =>
      forall related, field.2.related? = some related -> motive related)
    (fun name fields derived hfields =>
      step { name := name, fields := fields, derived := derived } hfields)
    (fun _ _ _ _ h => by cases h)
    (fun _ _ _ _ hrelated _ h => by
      cases h
      exact hrelated)
    (fun _ _ _ _ hrelated _ h => by
      cases h
      exact hrelated)
    (fun _ _ hrelated _ h => by
      cases h
      exact hrelated)
    (fun _ h => by cases h)
    (fun _ _ hfield hrest => List.forall_mem_cons.mpr ⟨hfield, hrest⟩)
    (fun _ _ h => h)
    model

def Value.RefersTo (collection : String) (value : Value) : Prop :=
  exists id, Reference.ofValue? value =
    some { collection := collection, id := id }

namespace Store

/-- What the documents of a collection hold at a path refers to another. -/
def PathLeads (store : Store) (collection : String) (path : List String)
    (target : String) : Prop :=
  forall entry, entry ∈ store.documentsOf collection ->
    forall held, entry.2.at? path = some held -> held.RefersTo target

/-- The entries of an index, where there is one, end in references into a
collection. -/
def IndexLeads (store : Store) (index target : String) : Prop :=
  forall stored, Keyed.get? store.indexes index = some stored ->
    forall entry, entry ∈ store.documentsOf stored.definition.source ->
      exists last, (stored.definition.entryOf entry.2).last? = some last ∧
        last.RefersTo target

def FieldLeads (store : Store) (owner name : String) : Field -> Prop
  | .scalar _ _ _ => True
  | .reference related _ _ _ =>
      store.PathLeads owner (dataPath name) related.name
  | .manyToMany related _ join _ =>
      store.IndexLeads (join.forwardIndexName owner name) related.name
  | .reverse related index => store.IndexLeads index related.name

inductive Legible (store : Store) : Model -> Prop where
  | intro {model : Model} (hfree : model.name ∉ Reference.reserved)
      (hleads : forall field, field ∈ model.fields ->
        store.FieldLeads model.name field.1 field.2)
      (hrelated : forall field, field ∈ model.fields ->
        forall related, field.2.related? = some related -> Legible store related) :
      Legible store model

theorem Legible.free {store : Store} {model : Model}
    (h : store.Legible model) : model.name ∉ Reference.reserved := by
  cases h
  assumption

end Store

/-!
## Readings that meet nothing malformed
-/

namespace Reading

variable {item other : Type} {store : Store}

/-- The reading may miss something or stop at rows that cannot be sorted, and meets nothing
malformed. -/
def WellFormed (reading : Reading item) (store : Store) : Prop :=
  forall fault, reading = .error fault ->
    fault = .missing ∨ fault = .stopped ∧ store.Disordered

theorem wellFormed_pure (a : item) : WellFormed (pure a) store := by
  intro fault h
  cases h

theorem wellFormed_found_missing (found : Option item) :
    WellFormed (Reading.found .missing found) store := by
  intro fault h
  cases found with
  | some a => cases h
  | none =>
      cases h
      exact Or.inl rfl

theorem wellFormed_readMatching (index : String) (terms : List Value) :
    WellFormed (store.readMatching index terms) store := by
  intro fault h
  unfold Store.readMatching at h
  cases hfound : store.matching? index terms with
  | some entries =>
      rw [hfound] at h
      cases h
  | none =>
      rw [hfound] at h
      cases h
      split
      · next hindex => exact Or.inr ⟨rfl, Store.disordered_of_matching? hfound hindex⟩
      · exact Or.inl rfl

theorem wellFormed_bind {reading : Reading item} {next : item -> Reading other}
    (hfirst : reading.WellFormed store)
    (hnext : forall a, reading = .ok a -> (next a).WellFormed store) :
    WellFormed (reading >>= next) store := by
  cases reading with
  | ok a =>
      exact hnext a rfl
  | error fault =>
      intro met h
      cases h
      exact hfirst fault rfl

theorem wellFormed_mapM {read : item -> Reading other} {items : List item}
    (h : forall a, a ∈ items -> (read a).WellFormed store) :
    WellFormed (items.mapM read) store := by
  induction items with
  | nil =>
      exact wellFormed_pure []
  | cons a rest ih =>
      rw [List.mapM_cons]
      have hall := List.forall_mem_cons.mp h
      exact wellFormed_bind hall.1 fun b _ =>
        wellFormed_bind (ih hall.2) fun bs _ => wellFormed_pure (b :: bs)

end Reading

/-!
## Reading a legible store
-/

open Reading

variable {store : Store}

theorem Store.IndexLeads.of_matching? {index target : String}
    (h : store.IndexLeads index target) {terms : List Value}
    {entries : List Value} (hentries : store.matching? index terms = some entries)
    {entry : Value} (hentry : entry ∈ entries) :
    exists last, entry.last? = some last ∧ last.RefersTo target := by
  rcases Store.matching?_eq_some_iff.mp hentries with ⟨stored, found, hstored, hfound, heq⟩
  rw [<- heq] at hentry
  rcases List.mem_map.mp hentry with ⟨document, hdocument, hshown⟩
  rw [<- hshown]
  have hmem : document ∈
      (store.documentsOf stored.definition.source).map Prod.snd :=
    (List.mem_filter.mp ((Store.perm_matchingDocuments? hfound).subset hdocument)).1
  rcases List.mem_map.mp hmem with ⟨numbered, hnumbered, hsecond⟩
  rw [<- hsecond]
  exact h stored hstored numbered hnumbered

theorem Store.IndexLeads.readEntries {index target : String}
    (h : store.IndexLeads index target) (start : Value)
    {read : Value -> Reading Value}
    (hread : forall last, last.RefersTo target -> (read last).WellFormed store) :
    (store.readEntries index start read).WellFormed store := by
  unfold Store.readEntries
  refine wellFormed_bind (wellFormed_readMatching _ _) fun entries hentries => ?_
  refine wellFormed_bind (wellFormed_mapM fun entry hentry => ?_)
    fun items _ => wellFormed_pure (Value.array items)
  have hfound := Reading.found_eq_ok_iff.mp hentries
  rcases h.of_matching? hfound (List.mem_of_mem_take hentry) with
    ⟨last, hlast, hrefers⟩
  rw [hlast]
  exact hread last hrefers

theorem Store.FieldLeads.read {owner name : String} {field : Field}
    (h : store.FieldLeads owner name field)
    (hrelated : forall related, field.related? = some related ->
      forall value, value.RefersTo related.name ->
        (related.read store value).WellFormed store)
    {entry : Nat × Document} (hentry : entry ∈ store.documentsOf owner)
    (start : Value) :
    (field.read store owner name start entry.2).WellFormed store := by
  cases field with
  | scalar written shown options =>
      exact wellFormed_pure _
  | reference related isOptional relation options =>
      rw [Field.read]
      cases hheld : entry.2.at? (dataPath name) with
      | none =>
          exact wellFormed_pure _
      | some held =>
          exact hrelated related rfl held (h entry hentry held hheld)
  | manyToMany related relation join singular =>
      rw [Field.read]
      exact Store.IndexLeads.readEntries h start (hrelated related rfl)
  | reverse related index =>
      rw [Field.read]
      exact Store.IndexLeads.readEntries h start (hrelated related rfl)

theorem Field.readAll_wellFormed {owner : String} {start : Value}
    {document : Document} {fields : List (String × Field)}
    (h : forall field, field ∈ fields ->
      (field.2.read store owner field.1 start document).WellFormed store) :
    (Field.readAll store owner start document fields).WellFormed store := by
  induction fields with
  | nil =>
      exact wellFormed_pure []
  | cons field rest ih =>
      rcases field with ⟨name, own⟩
      have hall := List.forall_mem_cons.mp h
      rw [Field.readAll]
      exact wellFormed_bind hall.1 fun value _ =>
        wellFormed_bind (ih hall.2) fun values _ =>
          wellFormed_pure ((name, value) :: values)

/-- Reading a reference into the collection of a model meets nothing malformed. -/
theorem Store.Legible.read {model : Model} (h : store.Legible model)
    {start : Value} (hstart : start.RefersTo model.name) :
    (model.read store start).WellFormed store := by
  induction model generalizing start with
  | step model ih =>
      rcases h with ⟨hfree, hleads, hrelated⟩
      rcases hstart with ⟨id, hreference⟩
      rcases model with ⟨name, fields, derived⟩
      rw [Model.read, hreference]
      refine wellFormed_bind (wellFormed_pure _) fun reference hsame => ?_
      cases hsame
      refine wellFormed_bind (wellFormed_found_missing _)
        fun document hfound => ?_
      have hstored := Reading.found_eq_ok_iff.mp hfound
      rcases mem_documentsOf_of_find? hfree hstored with ⟨number, _, hmem⟩
      refine wellFormed_bind (Field.readAll_wellFormed ?_)
        fun read _ => wellFormed_pure _
      intro field hfield
      exact (hleads field hfield).read
        (fun related hleadsTo value hvalue =>
          ih field hfield related hleadsTo
            (hrelated field hfield related hleadsTo) hvalue)
        hmem start

end DocumentMapper
