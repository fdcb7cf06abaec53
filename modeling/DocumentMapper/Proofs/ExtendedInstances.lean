import DocumentMapper.Proofs.Extensions
import DocumentMapper.Proofs.ReadBack

/-!
# Instances of extended models

A model that is extended by reverse sides under new names reads what it read before,
with a list under each of the names, and it is written as it was before.

The fields of the extension stand behind those of the model, so both the reading and
the parsing are the old one followed by a new one, and what the new one adds is told
from the old by its keys.
-/

namespace DocumentMapper

/-!
## Parsing with further keys
-/

namespace Schema

theorem issuesOfFields_append (fields others : List (String × Schema))
    (path : List String) (entries : Document) :
    issuesOfFields (fields ++ others) path entries =
      issuesOfFields fields path entries ++ issuesOfFields others path entries := by
  induction fields with
  | nil =>
      rfl
  | cons field rest ih =>
      rw [List.cons_append, issuesOfFields_cons, issuesOfFields_cons, ih,
        List.append_assoc]

theorem shapeFields_append (fields others : List (String × Schema))
    (entries shaped : Document) :
    shapeFields (fields ++ others) entries shaped =
      shapeFields others entries (shapeFields fields entries shaped) := by
  induction fields generalizing shaped with
  | nil =>
      rfl
  | cons field rest ih =>
      rw [List.cons_append, shapeFields_cons, shapeFields_cons, ih]

theorem shapeFields_of_absent {fields : List (String × Schema)} {entries : Document}
    (h : forall field, field ∈ fields -> Keyed.get? entries field.1 = none)
    (shaped : Document) : shapeFields fields entries shaped = shaped := by
  induction fields with
  | nil =>
      rfl
  | cons field rest ih =>
      rw [List.forall_mem_cons] at h
      rw [shapeFields_cons, h.1]
      exact ih h.2

theorem parseDocument_append {fields others : List (String × Schema)}
    {entries : Document}
    (habsent : forall field, field ∈ others -> Keyed.get? entries field.1 = none)
    (hissues : forall field, field ∈ others ->
      forall path, field.2.issuesAtKey path none = []) :
    (object (fields ++ others)).parseDocument entries =
      (object fields).parseDocument entries := by
  have hnone : issuesOfFields others [] entries = [] := by
    apply issuesOfFields_eq_nil_iff.mpr
    intro field hfield
    rw [habsent field hfield]
    exact hissues field hfield _
  simp only [parseDocument, parse, issues, issuesAt, shape, issuesOfFields_append,
    shapeFields_append, hnone, shapeFields_of_absent habsent, List.append_nil]

theorem shapeAt_list {item : Schema} {path : List String} {found : Option Value}
    (h : item.list.issuesAtKey path found = []) :
    exists items, item.list.shapeAt found = some (.array items) := by
  cases found with
  | none => cases h
  | some value =>
      cases value with
      | array items => exact ⟨_, rfl⟩
      | _ => cases h

end Schema

/-!
## Extensions under new names
-/

theorem Field.readAll_append {store : Store} {owner : String} {start : Value}
    {document : Document} (fields others : List (String × Field)) :
    Field.readAll store owner start document (fields ++ others) = (do
      let values <- Field.readAll store owner start document fields
      let more <- Field.readAll store owner start document others
      pure (values ++ more)) := by
  induction fields with
  | nil =>
      simp [Field.readAll]
  | cons field rest ih =>
      simp [Field.readAll, ih]

namespace Model

/-- Reverse sides under names of their own, which are none of the model's and none that
every instance carries. -/
structure NewSides (base : Model) (added : List (String × Field)) : Prop where
  distinct : (Keyed.keys added).Nodup
  fresh : forall name, name ∈ Keyed.keys added -> name ∉ Keyed.keys base.fields
  free : forall name, name ∈ Keyed.keys added -> name ∉ reservedFields
  reverse : forall field, field ∈ added ->
    exists related index, field.2 = .reverse related index

theorem newSides_nil (base : Model) : base.NewSides [] where
  distinct := List.nodup_nil
  fresh _ hname := by cases hname
  free _ hname := by cases hname
  reverse _ hfield := by cases hfield

theorem NewSides.insert {base : Model} {added : List (String × Field)}
    (h : base.NewSides added) {name : String}
    (hfresh : name ∉ Keyed.keys base.fields) (hfree : name ∉ reservedFields)
    (related : Model) (index : String) :
    base.NewSides (Keyed.insert added name (.reverse related index)) where
  distinct := Keyed.nodup_keys_insert _ _ h.distinct
  fresh wanted hwanted := by
    rcases Keyed.mem_keys_insert.mp hwanted with heq | hold
    · exact heq ▸ hfresh
    · exact h.fresh wanted hold
  free wanted hwanted := by
    rcases Keyed.mem_keys_insert.mp hwanted with heq | hold
    · exact heq ▸ hfree
    · exact h.free wanted hold
  reverse field hfield := by
    cases Keyed.mem_of_mem_insert hfield with
    | inl heq => exact ⟨related, index, congrArg Prod.snd heq⟩
    | inr hold => exact h.reverse field hold

/-- Behind its own fields the model has new reverse sides. -/
structure ExtendsBy (extended base : Model) (added : List (String × Field)) : Prop
    extends base.NewSides added where
  name : extended.name = base.name
  fields : extended.fields = base.fields ++ added

theorem exists_extendsBy {base other extended : Model}
    {mapping : List (String × String)}
    (h : Model.reverse base other mapping = .ok extended)
    (hfresh : forall entry, entry ∈ mapping -> base.field? entry.1 = none) :
    exists added, extended.ExtendsBy base added ∧
      forall name, name ∈ Keyed.keys added <-> name ∈ Keyed.keys mapping := by
  have hkept := Model.reverse_induction
    (P := fun done fields => exists added,
      fields = base.fields ++ added ∧ base.NewSides added ∧
        forall name, name ∈ Keyed.keys added <-> name ∈ Keyed.keys done)
    h ⟨[], (List.append_nil _).symm, newSides_nil base, fun _ => Iff.rfl⟩ ?_
  · rcases hkept with ⟨hname, added, hfields, hsides, hnames⟩
    exact ⟨added, { hsides with name := hname, fields := hfields }, hnames⟩
  · rintro done fields entry field index hentry _ _ hfree ⟨added, hfields, hsides, hnames⟩
    have hnew := Keyed.get?_eq_none_iff.mp (hfresh entry hentry)
    refine ⟨_, ?_, hsides.insert hnew hfree other index, fun name => ?_⟩
    · rw [hfields, Keyed.insert_append_of_fresh hnew]
    · rw [Keyed.mem_keys_insert, hnames, Keyed.keys_append, List.mem_append, or_comm]
      exact or_congr_right (by simp [Keyed.keys])

namespace ExtendsBy

variable {extended base : Model} {added : List (String × Field)} {store : Store}

/-!
## Reading
-/

def isOld (added : List (String × Field)) (name : String) : Bool :=
  name ∉ Keyed.keys added

/-- The entries of an instance that the model had before it was extended. -/
def old (added : List (String × Field)) (entries : Document) : Document :=
  entries.filter fun entry => isOld added entry.1

theorem get?_old {name : String} (hname : isOld added name = true) (entries : Document) :
    Keyed.get? (old added entries) name = Keyed.get? entries name := by
  rw [old, Keyed.get?_filter, if_pos hname]

theorem isOld_of_reserved (h : extended.ExtendsBy base added) {name : String}
    (hname : name ∈ reservedFields) : isOld added name = true :=
  decide_eq_true fun hadded => h.free name hadded hname

theorem isOld_of_field (h : extended.ExtendsBy base added) {name : String}
    (hname : name ∈ Keyed.keys base.fields) : isOld added name = true :=
  decide_eq_true fun hadded => h.fresh name hadded hname

theorem isOld_eq_false {name : String} (hname : name ∈ Keyed.keys added) :
    isOld added name = false :=
  decide_eq_false fun hold => hold hname

theorem read (h : extended.ExtendsBy base added) {start raw : Value}
    (hread : extended.read store start = .ok raw) :
    exists entries, raw = .document entries ∧
      base.read store start = .ok (.document (old added entries)) := by
  rw [read_eq, h.name, h.fields] at hread
  rcases Except.bind_eq_ok_iff.mp hread with ⟨reference, hreference, hfind⟩
  rcases Except.bind_eq_ok_iff.mp hfind with ⟨document, hdocument, hfields⟩
  rcases Except.bind_eq_ok_iff.mp hfields with ⟨all, hall, hend⟩
  rw [Field.readAll_append] at hall
  rcases Except.bind_eq_ok_iff.mp hall with ⟨values, hvalues, hrest⟩
  rcases Except.bind_eq_ok_iff.mp hrest with ⟨more, hmore, hboth⟩
  cases hboth
  cases hend
  have hfront : forall name,
      name ∈ Keyed.keys
        (("id", document.identity) :: ("ts", document.timestamp) :: values) ->
      isOld added name = true := by
    simp only [Keyed.keys, List.map_cons, List.forall_mem_cons]
    refine ⟨h.isOld_of_reserved List.mem_cons_self,
      h.isOld_of_reserved (List.mem_cons_of_mem _ List.mem_cons_self), ?_⟩
    intro name hname
    exact h.isOld_of_field ((Field.readAll_ok hvalues).1 ▸ hname)
  have hback : forall name, name ∈ Keyed.keys more -> isOld added name = false :=
    fun name hname => isOld_eq_false ((Field.readAll_ok hmore).1 ▸ hname)
  refine ⟨_, rfl, ?_⟩
  rw [old, Keyed.filter_ofList, <- List.cons_append, <- List.cons_append,
    Keyed.filter_append_eq_front (isOld added) hfront hback, read_eq]
  exact Except.bind_eq_ok_iff.mpr ⟨reference, hreference,
    Except.bind_eq_ok_iff.mpr ⟨document, hdocument,
      Except.bind_eq_ok_iff.mpr ⟨values, hvalues, rfl⟩⟩⟩

/-!
## Parsing

Behind the fields the keys that every instance carries are parsed, so that the new keys
stand between old ones.
-/

def newFields (added : List (String × Field)) : List (String × Schema) :=
  added.map fun field => (field.1, field.2.readSchema)

theorem keys_newFields (added : List (String × Field)) :
    Keyed.keys (newFields added) = Keyed.keys added := by
  simp [newFields, Keyed.keys]

theorem isOld_of_newFields {field : String × Schema} (hfield : field ∈ newFields added) :
    isOld added field.1 = false := by
  rcases List.mem_map.mp hfield with ⟨side, hside, rfl⟩
  exact isOld_eq_false (List.mem_map_of_mem hside)

theorem isOld_of_readFields (h : extended.ExtendsBy base added)
    {field : String × Schema} (hfield : field ∈ base.readFields) :
    isOld added field.1 = true := by
  have hname : field.1 ∈ Keyed.keys base.fields ++ reservedFields := by
    rw [<- keys_readFields]
    exact List.mem_map_of_mem hfield
  cases List.mem_append.mp hname with
  | inl hown => exact h.isOld_of_field hown
  | inr hreserved => exact h.isOld_of_reserved hreserved

theorem readFields_eq (h : extended.ExtendsBy base added) :
    extended.readFields =
      (base.fields.map fun field => (field.1, field.2.readSchema)) ++
        (newFields added ++ [("id", .string), ("ts", .number)]) := by
  rw [Model.readFields, h.fields, List.map_append, List.append_assoc, newFields]

theorem filter_readFields (h : extended.ExtendsBy base added) :
    extended.readFields.filter (fun field => isOld added field.1) =
        base.readFields ∧
      extended.readFields.filter (fun field => !isOld added field.1) =
        newFields added := by
  have hold : forall field, field ∈ base.readFields -> isOld added field.1 = true :=
    fun _ => h.isOld_of_readFields
  have hnew : forall field, field ∈ newFields added -> isOld added field.1 = false :=
    fun _ => isOld_of_newFields
  simp only [Model.readFields, List.forall_mem_append] at hold
  simp only [h.readFields_eq, List.filter_append]
  constructor
  · have hnone : (newFields added).filter (fun field => isOld added field.1) = [] :=
      List.filter_eq_nil_iff.mpr fun field hfield => by simp [hnew field hfield]
    rw [List.filter_eq_self.mpr hold.1, List.filter_eq_self.mpr hold.2, hnone]
    rfl
  · have hall : (newFields added).filter (fun field => !isOld added field.1) =
        newFields added :=
      List.filter_eq_self.mpr fun field hfield => by simp [hnew field hfield]
    have hnone : forall fields : List (String × Schema),
        (forall field, field ∈ fields -> isOld added field.1 = true) ->
        fields.filter (fun field => !isOld added field.1) = [] :=
      fun fields hfields =>
        List.filter_eq_nil_iff.mpr fun field hfield => by simp [hfields field hfield]
    rw [hnone _ hold.1, hnone _ hold.2, hall, List.append_nil, List.nil_append]

theorem parseInstance (h : extended.ExtendsBy base added) {entries shown : Document}
    (hparse : extended.parseInstance (.document entries) = .ok shown) :
    base.parseInstance (.document (old added entries)) = .ok (old added shown) := by
  have hissues := (parseInstance_eq_ok_iff.mp hparse).1
  rw [readSchema_eq] at hissues
  have hall := Schema.issuesOfFields_eq_nil_iff.mp hissues
  have hsame : forall field, field ∈ base.readFields ->
      Keyed.get? (old added entries) field.1 = Keyed.get? entries field.1 := by
    intro field hfield
    exact get?_old (h.isOld_of_readFields hfield) entries
  have hnone : Schema.issuesOfFields base.readFields [] (old added entries) = [] := by
    apply Schema.issuesOfFields_eq_nil_iff.mpr
    intro field hfield
    rw [hsame field hfield]
    rw [<- h.filter_readFields.1] at hfield
    exact hall field (List.mem_filter.mp hfield).1
  have hshape : old added shown =
      Schema.shapeFields base.readFields (old added entries) [] := by
    rw [parseInstance_ok hparse, old, Schema.filter_shapeFields (isOld added),
      h.filter_readFields.1, Schema.shapeFields_congr hsame]
    rfl
  rw [parseInstance_eq_ok_iff, readSchema_eq, hshape]
  exact ⟨hnone, rfl⟩

theorem get?_list (h : extended.ExtendsBy base added) {entries shown : Document}
    (hparse : extended.parseInstance (.document entries) = .ok shown)
    {name : String} (hname : name ∈ Keyed.keys added) :
    exists items, Keyed.get? shown name = some (.array items) := by
  rcases List.mem_map.mp hname with ⟨side, hside, rfl⟩
  rcases h.reverse side hside with ⟨related, index, hreverse⟩
  have hnodup : (Keyed.keys (newFields added)).Nodup := by
    rw [keys_newFields]
    exact h.distinct
  have hfound : Keyed.get? (newFields added) side.1 = some related.readSchema.list := by
    apply Keyed.get?_of_mem hnodup
    refine List.mem_map.mpr ⟨side, hside, ?_⟩
    rw [hreverse, Field.readSchema]
  have hmem : (side.1, related.readSchema.list) ∈ extended.readFields := by
    have hnew := Keyed.mem_of_get? hfound
    rw [<- h.filter_readFields.2] at hnew
    exact (List.mem_filter.mp hnew).1
  have hissues := (parseInstance_eq_ok_iff.mp hparse).1
  rw [readSchema_eq] at hissues
  have hnone := Schema.issuesOfFields_eq_nil_iff.mp hissues _ hmem
  -- What is shown under the new keys alone comes from the new schemas alone.
  have hshown : Keyed.get? shown side.1 =
      Keyed.get? (Schema.shapeFields (newFields added) entries []) side.1 := by
    have hfilter := Schema.filter_shapeFields (fun key => !isOld added key)
      extended.readFields entries []
    rw [<- parseInstance_ok hparse, h.filter_readFields.2, List.filter_nil] at hfilter
    rw [<- hfilter, Keyed.get?_filter (fun key => !isOld added key), isOld_eq_false hname]
    rfl
  rw [hshown, Schema.get?_shapeFields_nil hnodup, hfound]
  exact Schema.shapeAt_list hnone

/-!
## Writing

A reverse side can never be written, nor can it be in a patch, so data that leaves it
out is parsed as before.
-/

theorem writeSchema_eq (h : extended.ExtendsBy base added) :
    extended.writeSchema =
      .object ((base.fields.map fun field => (field.1, field.2.writeSchema)) ++
        added.map fun field => (field.1, .never)) := by
  have hnever : added.map (fun field => (field.1, field.2.writeSchema)) =
      added.map fun field => (field.1, .never) := by
    apply List.map_congr_left
    intro field hfield
    rcases h.reverse field hfield with ⟨related, index, hreverse⟩
    rw [hreverse, Field.writeSchema]
  rw [Model.writeSchema, h.fields, List.map_append, hnever]

/-- Data that leaves the new keys out is parsed as without them, where each may be
missing. -/
theorem parseDocument_behind {own : List (String × Schema)} {side : Schema}
    {data : Document} (hside : forall path, side.issuesAtKey path none = [])
    (hdata : forall name, name ∈ Keyed.keys added -> Keyed.get? data name = none) :
    (Schema.object (own ++ added.map fun field => (field.1, side))).parseDocument data =
      (Schema.object own).parseDocument data := by
  apply Schema.parseDocument_append
  · intro field hfield
    rcases List.mem_map.mp hfield with ⟨new, hnew, rfl⟩
    exact hdata new.1 (List.mem_map_of_mem hnew)
  · intro field hfield path
    rcases List.mem_map.mp hfield with ⟨new, hnew, rfl⟩
    exact hside path

theorem parseDocument_writeSchema (h : extended.ExtendsBy base added) {data : Document}
    (hdata : forall name, name ∈ Keyed.keys added -> Keyed.get? data name = none) :
    extended.writeSchema.parseDocument data = base.writeSchema.parseDocument data := by
  rw [h.writeSchema_eq]
  exact parseDocument_behind (fun _ => rfl) hdata

theorem parseDocument_relaxed (h : extended.ExtendsBy base added) {data : Document}
    (hdata : forall name, name ∈ Keyed.keys added -> Keyed.get? data name = none) :
    extended.writeSchema.relaxed.parseDocument data =
      base.writeSchema.relaxed.parseDocument data := by
  have hmissing : forall path, Schema.never.orMissing.issuesAtKey path none = [] :=
    fun _ => rfl
  rw [h.writeSchema_eq, Schema.relaxed, List.map_append, List.map_map (l := added)]
  exact parseDocument_behind hmissing hdata

theorem createRequest (h : extended.ExtendsBy base added) {data : Document}
    (hdata : forall name, name ∈ Keyed.keys added -> Keyed.get? data name = none) :
    extended.createRequest data = base.createRequest data := by
  rw [Model.createRequest, Model.createRequest, h.parseDocument_writeSchema hdata, h.name]

theorem updateRequest (h : extended.ExtendsBy base added) {data : Document}
    (hdata : forall name, name ∈ Keyed.keys added -> Keyed.get? data name = none)
    (id : String) :
    extended.updateRequest id data = base.updateRequest id data := by
  rw [Model.updateRequest, Model.updateRequest, h.parseDocument_relaxed hdata, refFromId,
    refFromId, h.name]

end ExtendsBy
end Model

/-!
## Extending is conservative
-/

namespace Manager

/-- What a manager of an extended model answers, less the new lists, a manager of the
model answers too. -/
theorem get_extended {extended base : Model} {added : List (String × Field)}
    (h : extended.ExtendsBy base added) {store left : Store} (hstore : store.Consistent)
    {clock : Clock} {id : String} {shown : Document}
    (hget : (memory clock extended).get id store = .ok shown left) :
    left = store ∧
      (memory clock base).get id store =
        .ok (Model.ExtendsBy.old added shown) store ∧
      forall name, name ∈ Keyed.keys added ->
        exists items, Keyed.get? shown name = some (.array items) := by
  rcases (readOne_ok_iff (Model.reads_getRequest hstore extended id)).mp hget with
    ⟨hleft, raw, hraw, hparse⟩
  rw [h.name] at hraw
  rcases h.read hraw with ⟨entries, rfl, hbase⟩
  exact ⟨hleft,
    (readOne_ok_iff (Model.reads_getRequest hstore base id)).mpr
      ⟨rfl, _, hbase, h.parseInstance hparse⟩,
    fun name => h.get?_list hparse⟩

theorem extension_is_conservative {base other extended : Model}
    {mapping : List (String × String)}
    (hreverse : Model.reverse base other mapping = .ok extended)
    (hfresh : forall entry, entry ∈ mapping -> base.field? entry.1 = none) :
    (forall store : Store, store.Reachable ->
      forall (clock : Clock) (id : String) (shown : Document) (left : Store),
        (memory clock extended).get id store = .ok shown left ->
          left = store ∧
          (memory clock base).get id store =
            .ok (shown.filter fun entry => entry.1 ∉ Keyed.keys mapping) store ∧
          forall name, name ∈ Keyed.keys mapping ->
            exists items, Keyed.get? shown name = some (.array items)) ∧
    forall data : Document,
      (forall name, name ∈ Keyed.keys mapping -> Keyed.get? data name = none) ->
        extended.createRequest data = base.createRequest data ∧
        forall id, extended.updateRequest id data = base.updateRequest id data := by
  rcases Model.exists_extendsBy hreverse hfresh with ⟨added, hadded, hnames⟩
  constructor
  · intro store hreach clock id shown left hget
    rcases get_extended hadded hreach.consistent hget with ⟨hleft, hbase, hlists⟩
    refine ⟨hleft, ?_, fun name hname => hlists name ((hnames name).mpr hname)⟩
    have hsame : Model.ExtendsBy.old added shown =
        shown.filter fun entry => entry.1 ∉ Keyed.keys mapping := by
      apply List.filter_congr
      intro entry _
      exact decide_eq_decide.mpr (not_congr (hnames entry.1))
    rw [hbase, hsame]
  · intro data hdata
    have habsent : forall name, name ∈ Keyed.keys added ->
        Keyed.get? data name = none :=
      fun name hname => hdata name ((hnames name).mp hname)
    exact ⟨hadded.createRequest habsent, fun id => hadded.updateRequest habsent id⟩

/-!
The statement at one store: the author of one book is read with and without a list of
books, and a write that leaves the list out is accepted or refused all the same.
-/

def annWithBooks : Document :=
  [("name", .string "Ann"),
    ("books",
      .array
        [.document
          [("title", .string "Ox"),
            ("author",
              .document [("name", .string "Ann"), ("id", .string "1"), ("ts", .int .long 4)]),
            ("id", .string "2"), ("ts", .int .long 5)]]),
    ("id", .string "1"), ("ts", .int .long 4)]

theorem extension_is_conservative_oneBook :
    Model.reverse authorModel bookModel [("books", "author")] = .ok authorWithBooks ∧
      (memory (fun _ => 9) authorWithBooks).get "1" oneBook =
        .ok annWithBooks oneBook ∧
      (memory (fun _ => 9) authorModel).get "1" oneBook =
        .ok
          [("name", .string "Ann"), ("id", .string "1"), ("ts", .int .long 4)]
          oneBook ∧
      (exists items, Keyed.get? annWithBooks "books" = some (.array items)) ∧
      (exists request,
        authorModel.createRequest [("name", .string "Bea")] = .ok request ∧
        authorWithBooks.createRequest [("name", .string "Bea")] = .ok request) ∧
      exists issues,
        authorModel.updateRequest "1" [("name", .bool true)] = .error issues ∧
        authorWithBooks.updateRequest "1" [("name", .bool true)] = .error issues := by
  have hreverse :
      Model.reverse authorModel bookModel [("books", "author")] = .ok authorWithBooks := by
    with_unfolding_all rfl
  have hfresh : forall entry, entry ∈ [("books", "author")] ->
      authorModel.field? entry.1 = none := by
    intro entry hentry
    cases List.mem_singleton.mp hentry
    rfl
  have hreach : oneBook.Reachable := Store.LeadsTo.start.afterAll _ _
  have hget : (memory (fun _ => 9) authorWithBooks).get "1" oneBook =
      .ok annWithBooks oneBook := by
    with_unfolding_all rfl
  have hconservative := extension_is_conservative hreverse hfresh
  rcases hconservative.1 oneBook hreach _ _ _ _ hget with ⟨_, hbase, hlist⟩
  have hcreate := (hconservative.2 [("name", .string "Bea")] (by decide)).1
  have hupdate := (hconservative.2 [("name", .bool true)] (by decide)).2 "1"
  exact ⟨hreverse, hget, hbase, hlist "books" (by decide),
    ⟨_, rfl, hcreate⟩, _, rfl, hupdate⟩

end Manager
end DocumentMapper
