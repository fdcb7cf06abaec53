import DocumentMapper.Proofs.Conformance
import DocumentMapper.Proofs.ExtendedInstances
import DocumentMapper.Proofs.Listings

/-!
# The shape of instances

An instance that a manager answers has every key of its model that may be read, in the
order of the fields, and then its id and its timestamp; and the instances inside it have
the shape of their own models, at every depth.

The reading gives every field of a model a key, with a null where nothing is stored, and
parsing drops the hidden ones only.  The induction over the model carries both sides at
once: what was read of the related models, and that it conforms to what they are read
with.
-/

namespace DocumentMapper

/-!
## Models that can be built
-/

/-- A model is declared over models that have been built, or extends one by reverse
sides of another. -/
inductive Model.Built : Model -> Prop where
  | declared {name : String} {fields : List (String × Field)} {model : Model}
      (h : Model.declare name fields = .ok model)
      (hrelated : forall field, field ∈ model.fields ->
        forall related, field.2.related? = some related -> Built related) :
      Built model
  | extended {model other extended : Model} {mapping : List (String × String)}
      (hmodel : Built model) (hother : Built other)
      (h : Model.reverse model other mapping = .ok extended) : Built extended

namespace Model.Built

theorem wellNamed {model : Model} (h : model.Built) : model.WellNamed := by
  induction h with
  | declared h _ _ => exact wellNamed_of_declare h
  | extended _ _ h ih _ => exact ih.reverse h

theorem related {model : Model} (h : model.Built) :
    forall field, field ∈ model.fields ->
      forall related, field.2.related? = some related -> related.Built := by
  induction h with
  | declared _ hrelated _ =>
      exact hrelated
  | extended _ hother h ih _ =>
      refine (Model.reverse_keeps
        (P := fun fields => forall field, field ∈ fields ->
          forall related, field.2.related? = some related -> related.Built)
        ?_ h ih).2
      intro fields name remote own index _ _ hfields field hfield related hrelated
      cases Keyed.mem_of_mem_insert hfield with
      | inl hadded =>
          rw [hadded] at hrelated
          cases hrelated
          exact hother
      | inr hold =>
          exact hfields field hold related hrelated

end Model.Built

/-!
## Instances at every depth
-/

def Field.shownNames (fields : List (String × Field)) : List String :=
  (fields.filter fun field => !field.2.readSchema.isHidden).map Prod.fst

mutual

def Model.IsInstance : Model -> Value -> Prop
  | { fields, .. }, value =>
      exists entries, value = .document entries ∧
        Keyed.keys entries = Field.shownNames fields ++ Model.reservedFields ∧
        (exists id, Keyed.get? entries "id" = some (.string id)) ∧
        (exists ts, Keyed.get? entries "ts" = some ts ∧ ts.isNumber = true) ∧
        Field.AreShown fields entries

/-- The value is what an instance may show of the field. -/
def Field.IsShown : Field -> Value -> Prop
  | .scalar _ _ _, _ => True
  | .reference related isOptional _ _, value =>
      Model.IsInstance related value ∨ (isOptional = true ∧ value = .null)
  | .manyToMany related _ _ _, value =>
      exists items, value = .array items ∧
        forall item, item ∈ items -> Model.IsInstance related item
  | .reverse related _, value =>
      exists items, value = .array items ∧
        forall item, item ∈ items -> Model.IsInstance related item

def Field.AreShown : List (String × Field) -> Document -> Prop
  | [], _ => True
  | (name, field) :: rest, entries =>
      (forall value, Keyed.get? entries name = some value -> Field.IsShown field value) ∧
        Field.AreShown rest entries

end

theorem Field.areShown_iff {fields : List (String × Field)} {entries : Document} :
    Field.AreShown fields entries <->
      forall name field, (name, field) ∈ fields ->
        forall value, Keyed.get? entries name = some value -> field.IsShown value := by
  induction fields with
  | nil =>
      simp [Field.AreShown]
  | cons field rest ih =>
      rw [Field.AreShown, ih]
      simp only [List.mem_cons]
      constructor
      · rintro ⟨hfirst, hrest⟩ name own (heq | hmem)
        · cases heq
          exact hfirst
        · exact hrest name own hmem
      · intro h
        exact ⟨h _ _ (Or.inl rfl), fun name own hmem => h name own (Or.inr hmem)⟩

theorem Model.isInstance_iff {model : Model} {entries : Document} :
    model.IsInstance (.document entries) <->
      Keyed.keys entries = Field.shownNames model.fields ++ reservedFields ∧
        (exists id, Keyed.get? entries "id" = some (.string id)) ∧
        (exists ts, Keyed.get? entries "ts" = some ts ∧ ts.isNumber = true) ∧
        forall name field, (name, field) ∈ model.fields ->
          forall value, Keyed.get? entries name = some value -> field.IsShown value := by
  rcases model with ⟨owner, fields, derived⟩
  rw [IsInstance, <- Field.areShown_iff]
  constructor
  · rintro ⟨_, hsame, h⟩
    cases hsame
    exact h
  · exact fun h => ⟨entries, rfl, h⟩

/-!
## Keys of an instance
-/

namespace Schema

/-- Where every key is there, parsing drops the hidden ones only. -/
theorem keys_shapeFields_of_present {fields : List (String × Schema)}
    (h : (Keyed.keys fields).Nodup) {entries : Document}
    (hpresent : forall field, field ∈ fields ->
      exists value, Keyed.get? entries field.1 = some value) :
    Keyed.keys (shapeFields fields entries []) =
      Keyed.keys (fields.filter fun field => !field.2.isHidden) := by
  rw [shapeFields_eq_pick h, keys_pick]
  congr 1
  apply List.filter_congr
  intro field hfield
  rcases hpresent field hfield with ⟨value, hvalue⟩
  rw [hvalue, shapeAt]
  cases field.2.isHidden <;> rfl

end Schema

theorem Model.keys_shown (model : Model) :
    Keyed.keys (model.readFields.filter fun field => !field.2.isHidden) =
      Field.shownNames model.fields ++ reservedFields := by
  simp [Field.shownNames, readFields, Keyed.keys, List.filter_append, List.filter_map,
    Function.comp_def, reservedFields, Schema.isHidden]

/-!
## What is read and parsed
-/

theorem exists_of_mem_forall₂ {item other : Type} {R : item -> other -> Prop}
    {items : List item} {others : List other} (h : List.Forall₂ R items others)
    {b : other} (hb : b ∈ others) : exists a, R a b := by
  induction h with
  | nil => cases hb
  | cons hfirst _ ih =>
      cases hb with
      | head => exact ⟨_, hfirst⟩
      | tail _ hrest => exact ih hrest

theorem Store.readEntries_ok {store : Store} {index : String} {start raw : Value}
    {read : Value -> Reading Value}
    (h : store.readEntries index start read = .ok raw) :
    exists items, raw = .array items ∧
      forall item, item ∈ items -> exists last, read last = .ok item := by
  rcases Except.bind_eq_ok_iff.mp h with ⟨entries, _, hitems⟩
  rcases Except.bind_eq_ok_iff.mp hitems with ⟨items, hread, hend⟩
  cases hend
  refine ⟨items, rfl, fun item hitem => ?_⟩
  rcases exists_of_mem_forall₂ (mapM_eq_ok_iff.mp hread) hitem with ⟨entry, hentry⟩
  rcases Except.bind_eq_ok_iff.mp hentry with ⟨last, _, hlast⟩
  exact ⟨last, hlast⟩

/-- Parsing makes instances of what is read of a model. -/
def Model.ReadAsInstance (store : Store) (model : Model) : Prop :=
  forall start raw, model.read store start = .ok raw ->
    model.readSchema.Conforms raw -> model.IsInstance (model.readSchema.shape raw)

theorem Model.ReadAsInstance.list {store : Store} {model : Model}
    (h : model.ReadAsInstance store) {index : String} {start raw : Value}
    (hread : store.readEntries index start (fun last => model.read store last) =
      .ok raw)
    (hconforms : model.readSchema.list.Conforms raw) :
    exists items, model.readSchema.list.shape raw = .array items ∧
      forall item, item ∈ items -> model.IsInstance item := by
  rcases Store.readEntries_ok hread with ⟨raws, rfl, hraws⟩
  rw [Schema.list, Schema.conforms_array] at hconforms
  refine ⟨raws.map model.readSchema.shape, rfl, ?_⟩
  rw [List.forall_mem_map]
  intro item hitem
  rcases hraws item hitem with ⟨last, hlast⟩
  exact h last item hlast (hconforms item hitem)

theorem Model.not_conforms_null (model : Model) :
    ¬ model.readSchema.Conforms .null := by
  rw [readSchema_eq]
  rintro ⟨entries, hnull, _⟩
  cases hnull

theorem Field.isShown_of_read {store : Store} {field : Field}
    (h : forall related, field.related? = some related ->
      related.ReadAsInstance store)
    {owner name : String} {start value : Value} {document : Document}
    (hread : field.read store owner name start document = .ok value)
    (hconforms : field.readSchema.Conforms value) :
    field.IsShown (field.readSchema.shape value) := by
  cases field with
  | scalar written read options =>
      trivial
  | manyToMany related relation join singular =>
      exact (h related rfl).list hread hconforms
  | reverse related index =>
      exact (h related rfl).list hread hconforms
  | reference related isOptional relation options =>
      have hinstance : related.readSchema.Conforms value ->
          related.IsInstance (related.readSchema.shape value) := by
        intro hpresent
        rw [Field.read] at hread
        split at hread
        · next held _ =>
            exact h related rfl held value hread hpresent
        · cases hread
          exact absurd hpresent related.not_conforms_null
      cases isOptional with
      | false =>
          exact Or.inl (hinstance hconforms)
      | true =>
          have hschema : (Field.reference related true relation options).readSchema =
              .optional related.readSchema := by
            rw [Field.readSchema, Schema.orAbsentIf, if_pos rfl, Model.readSchema_eq]
            rfl
          rw [hschema] at hconforms ⊢
          cases hconforms with
          | inl hnull =>
              rw [hnull]
              exact Or.inr ⟨rfl, Schema.shape_null _⟩
          | inr hpresent => exact Or.inl (hinstance hpresent)

namespace Model

variable {model : Model} {store : Store}

theorem ShownAs.present {start : Value} {document entries : Document}
    (h : model.ShownAs store start document entries) :
    forall field, field ∈ model.readFields ->
      exists value, Keyed.get? entries field.1 = some value := by
  intro field hfield
  rw [readFields, List.mem_append] at hfield
  rcases hfield with hown | hreserved
  · rcases List.mem_map.mp hown with ⟨⟨name, own⟩, hmem, rfl⟩
    rcases h.field name own hmem with ⟨value, hvalue, _⟩
    exact ⟨value, hvalue⟩
  · rw [List.mem_pair] at hreserved
    rcases hreserved with rfl | rfl
    · exact ⟨_, h.id⟩
    · exact ⟨_, h.ts⟩

theorem WellNamed.left_of_read (h : model.WellNamed) {entries : Document}
    (hconforms : model.readSchema.Conforms (.document entries)) {key : String}
    {schema : Schema} (hmem : (key, schema) ∈ model.readFields) {value : Value}
    (hvalue : Keyed.get? entries key = some value) :
    schema.Conforms value ∧
      Keyed.get? (Schema.shapeFields model.readFields entries []) key =
        if schema.isHidden then none else some (schema.shape value) := by
  rw [readSchema_eq, Schema.conforms_object] at hconforms
  have hown := hconforms _ hmem
  rw [hvalue] at hown
  refine ⟨hown, ?_⟩
  rw [Schema.get?_shapeFields_nil h.nodup_readFields,
    Keyed.get?_of_mem h.nodup_readFields hmem, hvalue]
  rfl

theorem readAsInstance (model : Model) (hbuilt : model.Built) :
    model.ReadAsInstance store := by
  induction model with
  | step model ih =>
      intro start raw hread hconforms
      have hnamed := hbuilt.wellNamed
      rcases hnamed.read_ok hread with ⟨_, document, entries, _, _, rfl, hentries⟩
      have hid := hnamed.left_of_read hconforms
        (List.mem_append_right _ List.mem_cons_self) hentries.id
      have hts := hnamed.left_of_read hconforms
        (List.mem_append_right _ (List.mem_cons_of_mem _ List.mem_cons_self)) hentries.ts
      rw [readSchema_eq, Schema.shape, isInstance_iff]
      refine ⟨?_, ?_, ?_, ?_⟩
      · rw [Schema.keys_shapeFields_of_present hnamed.nodup_readFields hentries.present,
          keys_shown]
      · rcases hid.1 with ⟨id, hstring⟩
        exact ⟨id, hid.2.trans (congrArg some hstring)⟩
      · refine ⟨_, hts.2, ?_⟩
        rcases hts.1 with ⟨width, n, hnumber⟩ | ⟨x, hnumber⟩
        · rw [hnumber]
          rfl
        · rw [hnumber]
          rfl
      · intro name field hfield value hvalue
        rcases hentries.field name field hfield with ⟨found, hfound, hown⟩
        have hleft := hnamed.left_of_read hconforms
          (List.mem_append_left _ (List.mem_map_of_mem hfield)) hfound
        rw [hleft.2] at hvalue
        split at hvalue
        · cases hvalue
        · cases hvalue
          exact Field.isShown_of_read
            (fun related hrelated =>
              ih _ hfield related hrelated (hbuilt.related _ hfield related hrelated))
            hown hleft.1

/-- What a manager takes for an instance of its model is one. -/
theorem Built.isInstance_of_parse (h : model.Built) {start raw : Value}
    (hread : model.read store start = .ok raw) {shown : Document}
    (hparse : model.parseInstance raw = .ok shown) :
    model.IsInstance (.document shown) := by
  rcases parseInstance_eq_ok_iff.mp hparse with ⟨hissues, hshape⟩
  have hinstance := model.readAsInstance h start raw hread
    (Schema.issuesAt_eq_nil_iff_conforms.mp hissues)
  cases hleft : model.readSchema.shape raw with
  | document entries =>
      rw [hleft] at hshape hinstance
      cases hshape
      exact hinstance
  | _ =>
      rw [hleft] at hshape
      cases hshape

end Model

/-!
# Main statement
-/

namespace Manager

theorem instances_have_declared_shape {store : Store} (hreach : store.Reachable)
    {model : Model} (hbuilt : model.Built) (clock : Clock) :
    (forall (id : String) (shown : Document) (left : Store),
      (memory clock model).get id store = .ok shown left ->
        model.IsInstance (.document shown)) ∧
    (forall (reference : Reference) (shown : Document) (left : Store),
      (memory clock model).dereference reference store = .ok shown left ->
        model.IsInstance (.document shown)) ∧
    forall (index : Option String) (terms : List Value) (found : List Document)
        (left : Store),
      (memory clock model).paginate index terms store = .ok found left ->
        forall shown, shown ∈ found -> model.IsInstance (.document shown) := by
  have hstore := hreach.consistent
  refine ⟨?_, ?_, ?_⟩
  · intro id shown left hget
    rcases (readOne_ok_iff (Model.reads_getRequest hstore model id)).mp hget with
      ⟨_, raw, hraw, hparse⟩
    exact hbuilt.isInstance_of_parse hraw hparse
  · intro reference shown left hread
    rcases (readOne_ok_iff (Model.reads_ofReference hstore model reference)).mp hread
      with ⟨_, raw, hraw, hparse⟩
    exact hbuilt.isInstance_of_parse hraw hparse
  · intro index terms found left hlist shown hshown
    rcases ((paginate_eq_ok_iff hstore).mp hlist).2 with ⟨starts, _, hall⟩
    rcases exists_of_mem_forall₂ hall hshown with ⟨start, hone⟩
    rcases (readOne_ok_iff
        (model.reads_dereference hstore (.literal start) [] start rfl)).mp hone with
      ⟨_, raw, hraw, hparse⟩
    exact hbuilt.isInstance_of_parse hraw hparse

/-!
The statement at one store: an author is read with the list of the books, each of which
shows the author again, and the books are listed under their author.
-/

theorem authorWithBooks_built : authorWithBooks.Built := by
  have hauthor : authorModel.Built := by
    have hdeclare : Model.declare "Author" authorModel.fields = .ok authorModel := by
      rfl
    refine .declared hdeclare ?_
    simp [authorModel, Field.related?]
  have hbook : bookModel.Built := by
    have hdeclare : Model.declare "Book" bookModel.fields = .ok bookModel := by
      rfl
    refine .declared hdeclare ?_
    simpa [bookModel, Field.related?] using hauthor
  have hreverse :
      Model.reverse authorModel bookModel [("books", "author")] = .ok authorWithBooks := by
    with_unfolding_all rfl
  exact .extended hauthor hbook hreverse

theorem instances_have_declared_shape_oneBook :
    authorWithBooks.Built ∧ oneBook.Reachable ∧
      (memory (fun _ => 9) authorWithBooks).get "1" oneBook =
        .ok annWithBooks oneBook ∧
      authorWithBooks.IsInstance (.document annWithBooks) ∧
      (memory (fun _ => 9) authorWithBooks).paginate none [] oneBook =
        .ok [annWithBooks] oneBook ∧
      (forall shown, shown ∈ [annWithBooks] ->
        authorWithBooks.IsInstance (.document shown)) := by
  have hreach : oneBook.Reachable := Store.LeadsTo.start.afterAll _ _
  have hget : (memory (fun _ => 9) authorWithBooks).get "1" oneBook =
      .ok annWithBooks oneBook := by
    with_unfolding_all rfl
  have hlist : (memory (fun _ => 9) authorWithBooks).paginate none [] oneBook =
      .ok [annWithBooks] oneBook := by
    with_unfolding_all rfl
  have hshape := instances_have_declared_shape hreach authorWithBooks_built
    (fun _ => 9)
  exact ⟨authorWithBooks_built, hreach, hget, hshape.1 "1" _ _ hget, hlist,
    hshape.2.2 none [] _ _ hlist⟩

end Manager
end DocumentMapper
