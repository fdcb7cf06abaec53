import DocumentMapper.Proofs.SoundQueries

/-!
# Instances

What a manager answers when it reads one instance: the document is read field by
field, and what was read is parsed by the schema of the model.  Both go over the
fields of the model, so the answer is known key by key.

Creating and updating answer what such a read answers after the write.
-/

namespace DocumentMapper

/-!
## Well-named models

The names of the fields tell them apart, from each other and from what every
instance carries.  Every model that can be declared is of this kind, and so is
every model that extends one.
-/

namespace Model

structure WellNamed (model : Model) : Prop where
  distinct : (Keyed.keys model.fields).Nodup
  free : forall name, name ∈ Keyed.keys model.fields -> name ∉ reservedFields

theorem check_of_forM {model : String} {fields : List (String × Field)}
    (h : (fields.forM fun field => checkFieldName model field.1) = .ok ()) :
    forall field, field ∈ fields -> checkFieldName model field.1 = .ok () := by
  induction fields with
  | nil =>
      intro field hfield
      cases hfield
  | cons first rest ih =>
      rw [List.forM_eq_forM, List.forM_cons] at h
      cases hfirst : checkFieldName model first.1 with
      | error misuse =>
          simp [hfirst, bind, Except.bind] at h
      | ok checked =>
          simp only [hfirst, bind, Except.bind] at h
          exact List.forall_mem_cons.mpr ⟨hfirst, ih h⟩

theorem wellNamed_of_declare {name : String} {fields : List (String × Field)}
    {model : Model} (h : declare name fields = .ok model) : model.WellNamed := by
  cases hcheck : (Keyed.ofList fields).forM
      (fun field => checkFieldName name field.1) with
  | error misuse =>
      simp [declare, hcheck, bind, Except.bind] at h
  | ok checked =>
      simp [declare, hcheck, bind, Except.bind, pure, Except.pure] at h
      rw [<- h]
      refine ⟨Keyed.nodup_keys_ofList fields, ?_⟩
      intro key hkey
      rcases List.mem_map.mp hkey with ⟨field, hfield, hname⟩
      rw [<- hname]
      exact not_reserved_of_check (check_of_forM hcheck field hfield)

theorem WellNamed.reverse {model other extended : Model}
    {mapping : List (String × String)} (hmodel : model.WellNamed)
    (h : Model.reverse model other mapping = .ok extended) :
    extended.WellNamed := by
  have hkept := Model.reverse_induction
    (P := fun _ fields => (Keyed.keys fields).Nodup ∧
      forall name, name ∈ Keyed.keys fields -> name ∉ reservedFields)
    h ⟨hmodel.distinct, hmodel.free⟩ ?_
  · exact ⟨hkept.2.1, hkept.2.2⟩
  · intro _ fields entry _ _ _ _ _ hfree hfields
    refine ⟨Keyed.nodup_keys_insert _ _ hfields.1, fun name hname => ?_⟩
    cases Keyed.mem_keys_insert.mp hname with
    | inl hentry =>
        rw [hentry]
        exact hfree
    | inr hold =>
        exact hfields.2 name hold

end Model

/-!
## What is read
-/

theorem Field.readAll_ok {store : Store} {owner : String} {start : Value}
    {document values : Document} {fields : List (String × Field)}
    (h : Field.readAll store owner start document fields = .ok values) :
    Keyed.keys values = Keyed.keys fields ∧
      forall name field, (name, field) ∈ fields ->
        exists value, (name, value) ∈ values ∧
          field.read store owner name start document = .ok value := by
  induction fields generalizing values with
  | nil =>
      rw [Field.readAll] at h
      cases h
      exact ⟨rfl, fun _ _ hmem => by cases hmem⟩
  | cons entry rest ih =>
      rcases entry with ⟨key, first⟩
      rw [Field.readAll] at h
      rcases Except.bind_eq_ok_iff.mp h with ⟨value, hfirst, hnext⟩
      rcases Except.bind_eq_ok_iff.mp hnext with ⟨others, hothers, hend⟩
      cases hend
      rcases ih hothers with ⟨hkeys, hrest⟩
      constructor
      · rw [Keyed.keys, Keyed.keys, List.map_cons, List.map_cons]
        exact congrArg _ hkeys
      · intro name field hmem
        cases List.mem_cons.mp hmem with
        | inl heq =>
            cases heq
            exact ⟨value, List.mem_cons_self, hfirst⟩
        | inr hin =>
            rcases hrest name field hin with ⟨found, hfound, hread⟩
            exact ⟨found, List.mem_cons_of_mem _ hfound, hread⟩

/-- The entries say what a document shows of an instance of the model: its identity,
its timestamp, and under each field what the field is read as. -/
structure Model.ShownAs (model : Model) (store : Store) (start : Value)
    (document entries : Document) : Prop where
  id : Keyed.get? entries "id" = some document.identity
  ts : Keyed.get? entries "ts" = some document.timestamp
  field : forall name field, (name, field) ∈ model.fields ->
    exists value, Keyed.get? entries name = some value ∧
      field.read store model.name name start document = .ok value

namespace Model.WellNamed

variable {model : Model} {store : Store}

theorem ne_id (h : model.WellNamed) {name : String} {field : Field}
    (hfield : (name, field) ∈ model.fields) : "id" ≠ name := by
  intro heq
  apply h.free name (Keyed.mem_keys_of_mem hfield)
  rw [<- heq]
  exact List.mem_cons_self

theorem read_ok (h : model.WellNamed) {start raw : Value}
    (hread : model.read store start = .ok raw) :
    exists reference document entries,
      Reference.ofValue? start = some reference ∧
        store.find? reference = some document ∧ raw = .document entries ∧
        model.ShownAs store start document entries := by
  rcases model with ⟨owner, fields, derived⟩
  rw [Model.read] at hread
  rcases Except.bind_eq_ok_iff.mp hread with ⟨reference, hreference, hfind⟩
  rcases Except.bind_eq_ok_iff.mp hfind with ⟨document, hdocument, hfields⟩
  rcases Except.bind_eq_ok_iff.mp hfields with ⟨values, hvalues, hend⟩
  cases hend
  rcases Field.readAll_ok hvalues with ⟨hkeys, hall⟩
  have hown : forall name, name ∈ Keyed.keys values -> name ∉ reservedFields := by
    rw [hkeys]
    exact h.free
  have hdistinct : (Keyed.keys values).Nodup := by
    rw [hkeys]
    exact h.distinct
  have hid : "id" ∉ Keyed.keys values := fun hmem =>
    hown "id" hmem List.mem_cons_self
  have hts : "ts" ∉ Keyed.keys values := fun hmem =>
    hown "ts" hmem (List.mem_cons_of_mem _ List.mem_cons_self)
  have hnodup : (Keyed.keys
      (("id", document.identity) :: ("ts", document.timestamp) ::
        values)).Nodup := by
    have hids : "id" ∉ "ts" :: Keyed.keys values := by
      simpa using hid
    exact List.nodup_cons.mpr ⟨hids, List.nodup_cons.mpr ⟨hts, hdistinct⟩⟩
  refine ⟨reference, document, _, Reading.found_eq_ok_iff.mp hreference,
    Reading.found_eq_ok_iff.mp hdocument, rfl, ?_⟩
  rw [Keyed.ofList_of_nodup hnodup]
  refine ⟨rfl, rfl, ?_⟩
  intro name field hfield
  rcases hall name field hfield with ⟨value, hmem, hvalue⟩
  exact ⟨value, Keyed.get?_of_mem hnodup
    (List.mem_cons_of_mem _ (List.mem_cons_of_mem _ hmem)), hvalue⟩

end Model.WellNamed

/-!
## What is answered
-/

theorem Schema.parse_bind_eq_ok_iff {item : Type} {schema : Schema} {value : Value}
    {next : Value -> Except Error item} {a : item} :
    (schema.parse value).mapError .validation >>= next = .ok a <->
      schema.issues value = [] ∧ next (schema.shape value) = .ok a := by
  cases hparse : schema.parse value with
  | ok parsed =>
      rcases parse_eq_ok_iff.mp hparse with ⟨hissues, hshape⟩
      rw [hshape]
      exact ⟨fun hnext => ⟨hissues, hnext⟩, fun h => h.2⟩
  | error issues =>
      refine ⟨fun hnext => (by cases hnext), ?_⟩
      rintro ⟨hissues, _⟩
      rw [parse_eq_ok_iff.mpr ⟨hissues, rfl⟩] at hparse
      cases hparse

namespace Model

def readFields (model : Model) : List (String × Schema) :=
  (model.fields.map fun field => (field.1, field.2.readSchema)) ++
    [("id", .string), ("ts", .number)]

theorem readSchema_eq (model : Model) :
    model.readSchema = .object model.readFields := by
  rcases model with ⟨owner, fields, derived⟩
  rw [readSchema, Field.readSchemas_eq_map, readFields]

variable {model : Model}

theorem keys_readFields (model : Model) :
    Keyed.keys model.readFields = Keyed.keys model.fields ++ reservedFields := by
  simp [readFields, Keyed.keys, reservedFields]

theorem WellNamed.nodup_readFields (h : model.WellNamed) :
    (Keyed.keys model.readFields).Nodup := by
  rw [keys_readFields]
  refine List.nodup_append'.mpr ⟨h.distinct, by decide, ?_⟩
  intro name hname hreserved
  exact h.free name hname hreserved

theorem WellNamed.get?_readFields (h : model.WellNamed) {name : String}
    {field : Field} (hfield : (name, field) ∈ model.fields) :
    Keyed.get? model.readFields name = some field.readSchema := by
  apply Keyed.get?_of_mem h.nodup_readFields
  exact List.mem_append_left _
    (List.mem_map_of_mem
      (f := fun field : String × Field => (field.1, field.2.readSchema)) hfield)

theorem WellNamed.get?_readFields_id (h : model.WellNamed) :
    Keyed.get? model.readFields "id" = some .string :=
  Keyed.get?_of_mem h.nodup_readFields
    (List.mem_append_right _ List.mem_cons_self)

theorem WellNamed.get?_readFields_ts (h : model.WellNamed) :
    Keyed.get? model.readFields "ts" = some .number :=
  Keyed.get?_of_mem h.nodup_readFields
    (List.mem_append_right _ (List.mem_cons_of_mem _ List.mem_cons_self))

theorem parseInstance_eq_ok_iff {raw : Value} {shown : Document} :
    model.parseInstance raw = .ok shown <->
      model.readSchema.issues raw = [] ∧
        expectInstance (model.readSchema.shape raw) = .ok shown :=
  Schema.parse_bind_eq_ok_iff

theorem parseInstance_ok {entries shown : Document}
    (h : model.parseInstance (.document entries) = .ok shown) :
    shown = Schema.shapeFields model.readFields entries [] := by
  have hshape := (parseInstance_eq_ok_iff.mp h).2
  rw [readSchema_eq] at hshape
  cases hshape
  rfl

theorem WellNamed.get?_of_parseInstance (h : model.WellNamed)
    {entries shown : Document}
    (hparse : model.parseInstance (.document entries) = .ok shown)
    (wanted : String) :
    Keyed.get? shown wanted =
      (Keyed.get? model.readFields wanted).bind fun schema =>
        schema.shapeAt (Keyed.get? entries wanted) := by
  rw [parseInstance_ok hparse]
  exact Schema.get?_shapeFields_nil h.nodup_readFields entries wanted

theorem parseInstance_error {entries : Document} {error : Error}
    (h : model.parseInstance (.document entries) = .error error) :
    Schema.issuesOfFields model.readFields [] entries ≠ [] := by
  intro hnone
  have hok : model.parseInstance (.document entries) =
      .ok (Schema.shapeFields model.readFields entries []) := by
    rw [parseInstance_eq_ok_iff, readSchema_eq]
    exact ⟨hnone, rfl⟩
  rw [hok] at h
  cases h

end Model

/-!
## Answers of a manager
-/

namespace Manager

variable {clock : Clock} {model : Model} {store left : Store} {shown : Document}

theorem readOne_of_ok {request : Expr} {raw : Value}
    (h : Action.Reads (request.evaluate clock []) store (.ok raw)) :
    (memory clock model).readOne request store =
      match model.parseInstance raw with
      | .ok shown => .ok shown store
      | .error error => .error error store := by
  have hquery : Store.query clock request store = .ok raw store :=
    Store.query_reads h
  have hrun : (memory clock model).readOne request store =
      (settle (model.parseInstance raw) : Session Store Document) store := by
    show (Store.query clock request >>= fun raw =>
      (settle (model.parseInstance raw) : Session Store Document)) store = _
    simp only [bind, EStateM.bind, hquery]
  rw [hrun]
  cases model.parseInstance raw <;> rfl

/-- A read that is parsed answers where the reading and the parsing succeed, and leaves
the store as it is. -/
theorem settled_ok_iff {item : Type} {request : Expr} {outcome : Reading Value}
    (h : Action.Reads (request.evaluate clock []) store outcome)
    (parse : Value -> Except Error item) {a : item} :
    (do
      let raw <- (Client.memory clock).query request
      settle (parse raw) : Session Store item) store = .ok a left <->
      left = store ∧ exists raw, outcome = .ok raw ∧ parse raw = .ok a := by
  have hquery := Store.query_reads h
  constructor
  · intro hrun
    rcases Action.ok_of_bind hrun with ⟨raw, between, hraw, hsettle⟩
    rcases ok_of_settle hsettle with ⟨hparse, hleft⟩
    have hbetween : between = store := by
      rw [<- Store.after_of_ok hraw]
      exact hquery.after_eq
    exact ⟨hleft.trans hbetween, raw, hquery.ok_iff.mp ⟨between, hraw⟩, hparse⟩
  · rintro ⟨rfl, raw, hraw, hparse⟩
    rw [hraw] at hquery
    have hrun : (Client.memory clock).query request left = .ok raw left := hquery
    simp only [bind, EStateM.bind, hrun, hparse, settle]
    rfl

theorem readOne_ok_iff {request : Expr} {outcome : Reading Value}
    (h : Action.Reads (request.evaluate clock []) store outcome) :
    (memory clock model).readOne request store = .ok shown left <->
      left = store ∧
        exists raw, outcome = .ok raw ∧ model.parseInstance raw = .ok shown :=
  settled_ok_iff h model.parseInstance

theorem parse_of_readOne_validation {request : Expr} {outcome : Reading Value}
    {issues : List Issue}
    (h : Action.Reads (request.evaluate clock []) store outcome)
    (herror : (memory clock model).readOne request store =
      .error (.validation issues) left) :
    left = store ∧ exists raw, outcome = .ok raw ∧
      model.parseInstance raw = .error (.validation issues) := by
  have hleft : left = store := by
    rw [<- Store.after_of_error herror]
    exact after_readOne (Store.query_reads h).after_eq
  refine ⟨hleft, ?_⟩
  cases outcome with
  | ok raw =>
      rw [readOne_of_ok h] at herror
      cases hparse : model.parseInstance raw with
      | ok found =>
          rw [hparse] at herror
          cases herror
      | error error =>
          rw [hparse] at herror
          cases herror
          exact ⟨raw, rfl, hparse⟩
  | error fault =>
      have hquery := Store.query_reads h
      change (Store.query clock request >>= fun raw => _) store = _ at herror
      rcases hquery with ⟨error, hshows, hrun⟩
      simp only [bind, EStateM.bind, hrun] at herror
      cases hshows <;> cases herror

end Manager

/-!
## Answers after a write

A query that fails is taken back, so an error is either from before the write,
and the store is as it was, or from reading back what was written.
-/

theorem Action.error_of_bind {item other : Type} {action : Action item}
    {next : item -> Action other} {store left : Store} {error : Error}
    (h : (action >>= next) store = .error error left) :
    action store = .error error left ∨
      exists a between, action store = .ok a between ∧
        next a between = .error error left := by
  simp only [bind, EStateM.bind] at h
  split at h
  · next a between hfirst =>
      exact Or.inr ⟨a, between, hfirst, h⟩
  · next fault between hfirst =>
      cases h
      exact Or.inl hfirst

theorem Store.error_of_query {clock : Clock} {expr : Expr} {store left : Store}
    {error : Error} (h : query clock expr store = .error error left) :
    left = store := by
  unfold query at h
  split at h
  · cases h
  · cases h
    rfl

namespace Manager

variable {clock : Clock} {model : Model} {store left : Store} {shown : Document}

theorem error_of_settle {item : Type} {outcome : Except Error item}
    {error : Error}
    (h : (settle outcome : Session Store item) store = .error error left) :
    left = store := by
  rw [<- Store.after_of_error h]
  exact steady_settle outcome store

theorem create_ok {data : Document} (hstore : store.Consistent)
    (h : (memory clock model).create data store = .ok shown left) :
    exists parsed document raw,
      model.writeSchema.parseDocument data = .ok parsed ∧
        Store.createDocument clock model.name parsed store =
          .ok document left ∧
        model.read left
            (Store.numbered model.name (store.lastNumber + 1)).toValue =
          .ok raw ∧
        model.parseInstance raw = .ok shown := by
  rcases Action.ok_of_bind h with ⟨request, before, hrequest, hquery⟩
  rcases ok_of_request hrequest with ⟨hok, hbefore⟩
  rcases Model.createRequest_ok hok with ⟨parsed, hparsed, heq⟩
  rw [hbefore, heq] at hquery
  rcases Action.ok_of_bind hquery with ⟨value, after, hwrite, hread⟩
  rcases Store.ok_of_query_write (Expr.evaluate_create _ _) hwrite with
    ⟨document, hvalue, hrun⟩
  rw [hvalue, (Store.createDocument_ok hrun).2.1,
    createdReference_storedDocument] at hread
  have hafter := (Store.change_of_createDocument hrun).consistent hstore
  rcases (readOne_ok_iff (Model.reads_ofReference hafter model _)).mp hread with
    ⟨hleft, raw, hraw, hparse⟩
  rw [hleft]
  exact ⟨parsed, document, raw, hparsed, hrun, hraw, hparse⟩

theorem create_validation {data : Document} {issues : List Issue}
    (hstore : store.Consistent)
    (h : (memory clock model).create data store =
      .error (.validation issues) left) :
    left = store ∨
      exists parsed document raw,
        model.writeSchema.parseDocument data = .ok parsed ∧
          Store.createDocument clock model.name parsed store =
            .ok document left ∧
          model.read left
              (Store.numbered model.name (store.lastNumber + 1)).toValue =
            .ok raw ∧
          model.parseInstance raw = .error (.validation issues) := by
  rcases Action.error_of_bind h with hrefused | ⟨request, before, hrequest, hquery⟩
  · exact Or.inl (error_of_settle hrefused)
  rcases ok_of_request hrequest with ⟨hok, hbefore⟩
  rcases Model.createRequest_ok hok with ⟨parsed, hparsed, heq⟩
  rw [hbefore, heq] at hquery
  rcases Action.error_of_bind hquery with hfailed | ⟨value, after, hwrite, hread⟩
  · exact Or.inl (Store.error_of_query hfailed)
  rcases Store.ok_of_query_write (Expr.evaluate_create _ _) hwrite with
    ⟨document, hvalue, hrun⟩
  rw [hvalue, (Store.createDocument_ok hrun).2.1,
    createdReference_storedDocument] at hread
  have hafter := (Store.change_of_createDocument hrun).consistent hstore
  rcases parse_of_readOne_validation (Model.reads_ofReference hafter model _)
    hread with ⟨hleft, raw, hraw, hparse⟩
  rw [hleft]
  exact Or.inr ⟨parsed, document, raw, hparsed, hrun, hraw, hparse⟩

theorem update_validation {id : String} {data : Document} {issues : List Issue}
    (hstore : store.Consistent)
    (h : (memory clock model).update id data store =
      .error (.validation issues) left) :
    left = store ∨
      exists parsed document raw,
        model.writeSchema.relaxed.parseDocument data = .ok parsed ∧
          Store.updateDocument clock { collection := model.name, id := id }
            parsed store = .ok document left ∧
          model.read left
              (Reference.toValue { collection := model.name, id := id }) =
            .ok raw ∧
          model.parseInstance raw = .error (.validation issues) := by
  rcases Action.error_of_bind h with hrefused | ⟨request, before, hrequest, hquery⟩
  · exact Or.inl (error_of_settle hrefused)
  rcases ok_of_request hrequest with ⟨hok, hbefore⟩
  rcases Model.updateRequest_ok hok with ⟨parsed, hparsed, heq⟩
  rw [hbefore, heq] at hquery
  rcases Action.error_of_bind hquery with hfailed | ⟨value, after, hwrite, hread⟩
  · exact Or.inl (Store.error_of_query hfailed)
  rcases Store.ok_of_query_write (Expr.evaluate_update _ _ _) hwrite with
    ⟨document, _, hrun⟩
  have hafter := (Store.change_of_updateDocument hrun).consistent hstore
  rcases parse_of_readOne_validation (Model.reads_getRequest hafter model id)
    hread with ⟨hleft, raw, hraw, hparse⟩
  rw [hleft]
  exact Or.inr ⟨parsed, document, raw, hparsed, hrun, hraw, hparse⟩

end Manager
end DocumentMapper
