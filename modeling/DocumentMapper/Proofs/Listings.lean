import Mathlib.Data.List.Forall2
import DocumentMapper.Proofs.Instances
import DocumentMapper.Proofs.Lookup

/-!
# Lists of instances

A list of instances is read under a map and parsed as one list, and it answers what
reading and parsing its instances one by one would answer.

Neither side knows more than the other: a list has an instance for each value that it
starts from, in their order, and one instance that cannot be read or parsed fails the
whole list.
-/

namespace DocumentMapper

/-!
## Sequences that may fail
-/

theorem mapM_eq_ok_iff {fault item other : Type} {f : item -> Except fault other}
    {items : List item} {others : List other} :
    items.mapM f = .ok others <->
      List.Forall₂ (fun a b => f a = .ok b) items others := by
  induction items generalizing others with
  | nil =>
      simp [pure, Except.pure, eq_comm]
  | cons a rest ih =>
      simp only [List.mapM_cons, Except.bind_eq_ok_iff, ih,
        List.forall₂_cons_left_iff]
      constructor
      · rintro ⟨b, hb, bs, hbs, hend⟩
        cases hend
        exact ⟨b, bs, hb, hbs, rfl⟩
      · rintro ⟨b, bs, hb, hbs, rfl⟩
        exact ⟨b, hb, bs, hbs, rfl⟩

/-!
## Parsing lists
-/

theorem Schema.issuesAt_eq_nil_iff {schema : Schema} (path other : List String)
    {value : Value} :
    schema.issuesAt path value = [] <-> schema.issuesAt other value = [] := by
  induction schema generalizing path other value with
  | object fields ih =>
      cases value with
      | document entries =>
          show issuesOfFields fields path entries = [] <->
            issuesOfFields fields other entries = []
          rw [issuesOfFields_eq_nil_iff, issuesOfFields_eq_nil_iff]
          refine forall₂_congr fun field hfield => ?_
          have hown (found : Value) :
              field.2.issuesAt (path ++ [field.1]) found = [] <->
                field.2.issuesAt (other ++ [field.1]) found = [] :=
            ih field hfield _ _
          cases Keyed.get? entries field.1 with
          | some found =>
              exact hown found
          | none =>
              cases homittable : field.2.isOmittable with
              | true => simp [issuesAtKey, homittable]
              | false => simpa [issuesAtKey, homittable] using hown .null
      | _ =>
          simp [issuesAt]
  | array item ih =>
      cases value with
      | array items =>
          rw [issuesAt_array_eq_nil_iff, issuesAt_array_eq_nil_iff]
          exact forall₂_congr fun place hplace => ih _ _
      | _ =>
          simp [issuesAt]
  | optional inner ih =>
      rw [issuesAt, issuesAt]
      split
      · exact Iff.rfl
      · exact ih path other
  | omittable inner ih =>
      exact ih path other
  | string =>
      cases value <;> simp [issuesAt]
  | boolean =>
      cases value <;> simp [issuesAt]
  | oneOf options =>
      cases value <;> simp [issuesAt]
  | any =>
      exact Iff.rfl
  | hidden =>
      exact Iff.rfl
  | _ =>
      simp only [issuesAt]
      split <;> simp

namespace Model

variable {model : Model} {store : Store}

theorem parseInstances_eq_ok_iff {raws : List Value} {shown : List Document} :
    model.parseInstances (.array raws) = .ok shown <->
      List.Forall₂ (fun raw a => model.parseInstance raw = .ok a) raws shown := by
  have hissues : model.readSchema.list.issues (.array raws) = [] <->
      forall raw, raw ∈ raws -> model.readSchema.issues raw = [] := by
    rw [Schema.issues, Schema.list, Schema.issuesAt_array_eq_nil_iff,
      List.forall_mem_iff_getElem]
    exact forall₂_congr fun place hplace => Schema.issuesAt_eq_nil_iff _ _
  have hshape : model.readSchema.list.shape (.array raws) =
      .array (raws.map model.readSchema.shape) :=
    rfl
  rw [parseInstances, Schema.parse_bind_eq_ok_iff, hissues, hshape]
  simp only [mapM_eq_ok_iff, List.forall₂_map_left_iff]
  rw [<- List.forall₂_and_left]
  simp only [parseInstance_eq_ok_iff]

end Model

/-!
## Reading lists
-/

/-- The values that a listing reads the first instances from: the references of the
collection, or what the entries of an index end in. -/
def Store.starts? (store : Store) (model : Model) (index : Option String)
    (terms : List Value) : Option (List Value) :=
  match index with
  | none =>
      (store.references? model.name).map fun found => found.take Expr.pageSize
  | some name =>
      (store.matching? name terms).map fun found =>
        (found.take Expr.pageSize).map fun entry => entry.last?.getD .null

theorem Model.read_null (model : Model) (store : Store) :
    model.read store .null = .error .malformed := by
  rcases model with ⟨name, fields, derived⟩
  rfl

theorem Reading.found_map_bind {item between other : Type} {fault : ReadFault}
    (found : Option item) (f : item -> between) (next : between -> Reading other) :
    (Reading.found fault (found.map f) >>= next) =
      Reading.found fault found >>= fun a => next (f a) := by
  cases found <;> rfl

/-- An entry that ends in nothing leads nowhere, as a null does. -/
theorem Model.read_last (model : Model) (store : Store) (entry : Value) :
    (do
      let last <- Reading.found .malformed entry.last?
      model.read store last) = model.read store (entry.last?.getD .null) := by
  cases entry.last? with
  | none => exact (model.read_null store).symm
  | some last => rfl

theorem Model.exists_reads_paginate (clock : Clock) {store : Store}
    (hstore : store.Consistent) (model : Model) (index : Option String)
    (terms : List Value) :
    exists fault, Action.Reads
      ((model.paginate index (terms.map Expr.literal)).evaluate clock []) store (do
        let starts <- Reading.found fault (store.starts? model index terms)
        let items <- starts.mapM (model.read store)
        pure (Value.array items)) := by
  cases index with
  | none =>
      refine ⟨.missing, ?_⟩
      rw [Store.starts?, Reading.found_map_bind]
      exact model.reads_paginate_collection hstore (terms.map Expr.literal) []
  | some name =>
      refine ⟨if Keyed.contains store.indexes name then .stopped else .missing, ?_⟩
      rw [Store.starts?, Reading.found_map_bind]
      simp only [List.mapM_map, Function.comp_def, <- Model.read_last]
      exact Expr.reads_listIndex (Expr.evaluate_literals terms) fun entry last =>
        model.reads_dereference hstore (.var Expr.refVar) _ last rfl

/-!
# Main statement
-/

def Store.ListedAs (store : Store) (clock : Clock) (model : Model)
    (index : Option String) (terms : List Value) (shown : List Document) : Prop :=
  exists starts, store.starts? model index terms = some starts ∧
    List.Forall₂
      (fun start a =>
        (Manager.memory clock model).readOne (model.dereference (.literal start))
          store = .ok a store)
      starts shown

namespace Manager

variable {clock : Clock} {model : Model} {store left : Store}

theorem paginate_eq_ok_iff (hstore : store.Consistent) {index : Option String}
    {terms : List Value} {shown : List Document} :
    (memory clock model).paginate index terms store = .ok shown left <->
      left = store ∧ store.ListedAs clock model index terms shown := by
  have hone (start : Value) (a : Document) :
      (memory clock model).readOne (model.dereference (.literal start)) store =
          .ok a store <->
        exists raw, model.read store start = .ok raw ∧
          model.parseInstance raw = .ok a := by
    rw [readOne_ok_iff (model.reads_dereference hstore (.literal start) [] start rfl)]
    exact and_iff_right rfl
  rcases model.exists_reads_paginate clock hstore index terms with ⟨fault, hreads⟩
  refine (settled_ok_iff hreads model.parseInstances).trans (and_congr_right fun _ => ?_)
  simp only [Store.ListedAs, hone, <- exists_forall₂_iff, Except.bind_eq_ok_iff,
    Reading.found_eq_ok_iff, mapM_eq_ok_iff]
  constructor
  · rintro ⟨raw, ⟨starts, hstarts, raws, hraws, hend⟩, hparse⟩
    cases hend
    exact ⟨starts, hstarts, raws, hraws, Model.parseInstances_eq_ok_iff.mp hparse⟩
  · rintro ⟨starts, hstarts, raws, hraws, hparse⟩
    exact ⟨_, ⟨starts, hstarts, raws, hraws, rfl⟩,
      Model.parseInstances_eq_ok_iff.mpr hparse⟩

theorem getBy_unique {name : String} {field : Field}
    (hfield : model.field? name = some field)
    (hunique : field.options.unique = true) (term : Value) :
    (memory clock model).getBy name term = (do
      let found <- (memory clock model).paginate
        (some (ownIndexName model.name name)) [term]
      pure found.head?) := by
  have hrequest : model.getByRequest name term =
      .ok (model.ownIndexRequest name term) := by
    rw [Model.getByRequest, Model.requireField, hfield]
    exact if_pos hunique
  rw [getBy, memory_model, hrequest]
  rfl

theorem lists_agree_with_single_reads {store : Store} (hreach : store.Reachable)
    (clock : Clock) (model : Model) :
    (forall (index : Option String) (terms : List Value) (shown : List Document)
        (left : Store),
      (memory clock model).paginate index terms store = .ok shown left <->
        left = store ∧ store.ListedAs clock model index terms shown) ∧
    forall (name : String) (field : Field), model.field? name = some field ->
      field.options.unique = true ->
      forall (term : Value) (found : Option Document) (left : Store),
        (memory clock model).getBy name term store = .ok found left <->
          left = store ∧ exists shown,
            store.ListedAs clock model (some (ownIndexName model.name name)) [term]
              shown ∧
            found = shown.head? := by
  have hstore := hreach.consistent
  refine ⟨fun _ _ _ _ => paginate_eq_ok_iff hstore, ?_⟩
  intro name field hfield hunique term found left
  rw [getBy_unique hfield hunique]
  constructor
  · intro h
    rcases Action.ok_of_bind h with ⟨shown, between, hshown, hend⟩
    rcases (paginate_eq_ok_iff hstore).mp hshown with ⟨hbetween, hlisted⟩
    cases hend
    exact ⟨hbetween, shown, hlisted, rfl⟩
  · rintro ⟨rfl, shown, hlisted, rfl⟩
    have hshown := (paginate_eq_ok_iff hstore).mpr ⟨rfl, hlisted⟩
    simp only [bind, EStateM.bind, hshown]
    rfl

/-!
The statement at one store, which has two tags with unique labels.
-/

def twoTags : Store :=
  Store.empty.afterAll (fun _ => 0)
    [({ models := [tagModel] } : Deployment).construct,
    ({ models := [tagModel] } : Deployment).index,
    .create (.collection "Tag") (Model.dataParams [("label", .string "new")]),
    .create (.collection "Tag") (Model.dataParams [("label", .string "old")])]

theorem tags_listed_and_found :
    twoTags.Reachable ∧
      tagModel.field? "label" =
        some (.scalar .string .string { FieldOptions.plain with unique := true }) ∧
      (memory (fun _ => 0) tagModel).paginate none [] twoTags =
        .ok
          [[("label", .string "new"), ("id", .string "1"), ("ts", .int .long 3)],
            [("label", .string "old"), ("id", .string "2"), ("ts", .int .long 4)]]
          twoTags ∧
      (memory (fun _ => 0) tagModel).getBy "label" (.string "old") twoTags =
        .ok
          (some [("label", .string "old"), ("id", .string "2"), ("ts", .int .long 4)])
          twoTags ∧
      (memory (fun _ => 0) tagModel).getBy "label" (.string "lost") twoTags =
        .ok none twoTags := by
  have hreach : twoTags.Reachable := Store.LeadsTo.start.afterAll _ _
  have hagree := lists_agree_with_single_reads hreach (fun _ => 0) tagModel
  have hlabel := hagree.2 "label" _ rfl rfl
  refine ⟨hreach, rfl, ?_, ?_, ?_⟩
  · exact (hagree.1 none [] _ _).mpr
      ⟨rfl, [(Store.numbered "Tag" 1).toValue, (Store.numbered "Tag" 2).toValue], rfl,
        .cons rfl (.cons rfl .nil)⟩
  · have hstarts : twoTags.starts? tagModel (some "Tag_by_label") [.string "old"] =
        some [(Store.numbered "Tag" 2).toValue] := by
      with_unfolding_all rfl
    exact (hlabel (.string "old") _ _).mpr
      ⟨rfl, _, ⟨_, hstarts, .cons rfl .nil⟩, rfl⟩
  · have hstarts : twoTags.starts? tagModel (some "Tag_by_label") [.string "lost"] =
        some [] := by
      with_unfolding_all rfl
    exact (hlabel (.string "lost") _ _).mpr ⟨rfl, [], ⟨_, hstarts, .nil⟩, rfl⟩

end Manager
end DocumentMapper
