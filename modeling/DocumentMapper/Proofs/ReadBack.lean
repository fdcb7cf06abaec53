import DocumentMapper.Proofs.Instances
import DocumentMapper.Proofs.Numbers
import DocumentMapper.Proofs.Settled

/-!
# Created data is read back

A creation answers with the instance that it reads back.  The data has passed
through the schema that the model is written with, has lost its nulls, and passes
through the schema that the model is read with; where the two schemas are the same
the second parse changes nothing.
-/

namespace DocumentMapper

/-!
## What a creation stores
-/

namespace Model

variable {model : Model} {data admitted : Document}

def writeFields (model : Model) : List (String × Schema) :=
  model.fields.map fun field => (field.1, field.2.writeSchema)

theorem keys_writeFields (model : Model) :
    Keyed.keys model.writeFields = Keyed.keys model.fields := by
  simp [writeFields, Keyed.keys]

theorem WellNamed.nodup_writeFields (h : model.WellNamed) :
    (Keyed.keys model.writeFields).Nodup := by
  rw [keys_writeFields]
  exact h.distinct

theorem mem_writeFields {name : String} {field : Field}
    (hfield : (name, field) ∈ model.fields) :
    (name, field.writeSchema) ∈ model.writeFields :=
  List.mem_map_of_mem
    (f := fun field : String × Field => (field.1, field.2.writeSchema)) hfield

theorem admitted_eq (h : model.writeSchema.parseDocument data = .ok admitted) :
    Schema.issuesOfFields model.writeFields [] data = [] ∧
      admitted = Schema.shapeFields model.writeFields data [] :=
  Schema.parseDocument_ok h

theorem nodup_admitted
    (hparsed : model.writeSchema.parseDocument data = .ok admitted) :
    (Keyed.keys admitted).Nodup := by
  rw [(admitted_eq hparsed).2]
  exact Schema.nodup_keys_shapeFields List.nodup_nil

theorem WellNamed.get?_admitted (h : model.WellNamed)
    (hparsed : model.writeSchema.parseDocument data = .ok admitted)
    {name : String} {field : Field} (hfield : (name, field) ∈ model.fields) :
    Keyed.get? admitted name =
      field.writeSchema.shapeAt (Keyed.get? data name) := by
  rw [(admitted_eq hparsed).2,
    Schema.get?_shapeFields_nil h.nodup_writeFields,
    Keyed.get?_of_mem h.nodup_writeFields (mem_writeFields hfield),
    Option.bind_some]

/-- Only a field that is named like the key of a reference could make one of the
data. -/
theorem WellNamed.get?_admitted_key (h : model.WellNamed)
    (hparsed : model.writeSchema.parseDocument data = .ok admitted)
    (hkey : Reference.key ∉ Keyed.keys model.fields) :
    Keyed.get? admitted Reference.key = none := by
  rw [(admitted_eq hparsed).2,
    Schema.get?_shapeFields_nil h.nodup_writeFields]
  rw [<- keys_writeFields] at hkey
  rw [Keyed.get?_eq_none_iff.mpr hkey]
  rfl

end Model

namespace Store

open Document

theorem at?_storedDocument {data : Document} (hnodup : (Keyed.keys data).Nodup)
    (hkey : Keyed.get? data Reference.key = none) (reference : Reference)
    (timestamp : Int) (name : String) :
    (storedDocument reference timestamp (withoutNulls data)).at?
        (dataPath name) =
      (Keyed.get? data name).bind kept := by
  have hinside : Keyed.get? (withoutNulls data) Reference.key = none := by
    rw [get?_withoutNulls hnodup, hkey]
    rfl
  rw [at?_dataPath rfl hinside, get?_withoutNulls hnodup]
  cases hfound : (Keyed.get? data name).bind kept with
  | none =>
      rfl
  | some left =>
      rw [Option.bind_eq_some_iff] at hfound
      rcases hfound with ⟨value, _, hkept⟩
      rw [Option.bind_some, Value.present?, if_neg]
      intro hnull
      exact kept_ne_null hkept (Value.isNull_iff.mp hnull)

end Store

theorem Schema.shape_kept_shape {schema : Schema} {path : List String}
    (hschema : schema.DistinctKeys) {found : Option Value}
    (hfound : forall value, found = some value -> value.DistinctKeys)
    (h : schema.issuesAtKey path found = []) :
    schema.shape (((schema.shapeAt found).bind Document.kept).getD .null) =
      ((schema.shapeAt found).bind Document.kept).getD .null := by
  cases hkept : (schema.shapeAt found).bind Document.kept with
  | none =>
      exact shape_null schema
  | some left =>
      rw [Option.bind_eq_some_iff] at hkept
      rcases hkept with ⟨shaped, hshaped, hleft⟩
      cases found with
      | none =>
          cases hshaped
      | some value =>
          have heq : schema.shape value = shaped := by
            rw [shapeAt] at hshaped
            split at hshaped
            · cases hshaped
            · exact Option.some.inj hshaped
          rw [<- heq] at hleft
          exact shape_kept hschema
            (shaped_shape hschema (hfound value rfl) h)
            (shape_shape hschema value) hleft

/-!
# Main statement
-/

theorem Manager.create_reads_back {model : Model} (hnamed : model.WellNamed)
    (hfree : model.name ∉ Reference.reserved)
    (hkey : Reference.key ∉ Keyed.keys model.fields) {store : Store}
    (hreach : store.Reachable) {clock : Clock} {data : Document}
    (hdata : (Value.document data).DistinctKeys) {shown : Document}
    {left : Store}
    (hcreate : (Manager.memory clock model).create data store =
      .ok shown left) :
    exists id admitted,
      Keyed.get? shown "id" = some (.string id) ∧
      store.find? { collection := model.name, id := id } = none ∧
      (exists document,
        left.find? { collection := model.name, id := id } = some document) ∧
      Keyed.get? shown "ts" = some (.int .long left.lastTimestamp) ∧
      model.writeSchema.parseDocument data = .ok admitted ∧
      (forall name schema options,
        (name, .scalar schema schema options) ∈ model.fields ->
        schema.isHidden = false -> schema.DistinctKeys ->
        Keyed.get? shown name =
          some (((Keyed.get? admitted name).bind Document.kept).getD .null)) ∧
      (forall name written options,
        (name, .scalar written .hidden options) ∈ model.fields ->
        Keyed.get? shown name = none) ∧
      forall now,
        (Manager.memory now model).get id left = .ok shown left := by
  have hstore := hreach.consistent
  rcases create_ok hstore hcreate with
    ⟨admitted, document, raw, hparsed, hwritten, hread, hparse⟩
  rcases hnamed.read_ok hread with
    ⟨reference, found, entries, hreference, hfound, hraw, hentries⟩
  rw [Reference.ofValue?_toValue, Option.some.injEq] at hreference
  rw [<- hreference] at hfound
  have hsame := Store.find?_created hfree hwritten hfound
  rw [hsame] at hentries
  rcases Store.createDocument_ok hwritten with ⟨_, hdocument, hleft⟩
  have hshown := hraw ▸ hparse
  have hget := hnamed.get?_of_parseInstance hshown
  refine ⟨toString (store.lastNumber + 1), admitted, ?_, ?_, ⟨found, hfound⟩,
    ?_, hparsed, ?_, ?_, ?_⟩
  · rw [hget, hnamed.get?_readFields_id, hentries.id, hdocument]
    rfl
  · exact (hreach.numbersGiven hfree).find?_numbered hfree
  · rw [hget, hnamed.get?_readFields_ts, hentries.ts, hdocument, hleft,
      Store.putDocument_lastTimestamp]
    rfl
  · intro name schema options hfield hshowable hschema
    rcases hentries.field name _ hfield with ⟨value, hvalue, hown⟩
    rw [Field.read] at hown
    cases hown
    have hissues := Schema.issuesOfFields_eq_nil_iff.mp
      (Model.admitted_eq hparsed).1 _ (Model.mem_writeFields hfield)
    have hstored : document.at? (dataPath name) =
        (Keyed.get? admitted name).bind Document.kept := by
      rw [hdocument]
      exact Store.at?_storedDocument (Model.nodup_admitted hparsed)
        (hnamed.get?_admitted_key hparsed hkey) _ _ name
    rw [hget, hnamed.get?_readFields hfield, hvalue, hstored,
      hnamed.get?_admitted hparsed hfield, Option.bind_some]
    rw [Schema.shapeAt, if_neg (by simpa [Field.readSchema] using hshowable)]
    exact congrArg some
      (Schema.shape_kept_shape hschema (fun found hfound => hdata.of_get? hfound)
        hissues)
  · intro name written options hfield
    rcases hentries.field name _ hfield with ⟨value, hvalue, _⟩
    rw [hget, hnamed.get?_readFields hfield, hvalue]
    rfl
  · intro now
    have hafter := (Store.change_of_createDocument hwritten).consistent hstore
    exact (readOne_ok_iff (Model.reads_getRequest hafter model _)).mpr
      ⟨rfl, raw, hread, hparse⟩

/-!
The statement at one creation: a nested key that is null is dropped and an id becomes
a reference, while a null inside an array stays.
-/

def placeSchema : Schema :=
  .object
    [("city", .string), ("note", .optional .string),
      ("host", .omittable (.reference "Author"))]

def daysSchema : Schema :=
  .array (.object [("day", .number), ("note", .optional .string)])

def fairModel : Model :=
  { name := "Fair"
    fields :=
      [("place", .scalar placeSchema placeSchema FieldOptions.plain),
        ("days", .scalar daysSchema daysSchema FieldOptions.plain),
        ("code", .scalar .string .hidden FieldOptions.plain)]
    derived := false }

def noFair : Store :=
  Store.empty.afterAll (fun _ => 0) [fairModel.construct, fairModel.index]

def fairData : Document :=
  [("code", .string "k"),
    ("days",
      .array [.document [("note", .null), ("day", .int .short 3)]]),
    ("place",
      .document
        [("host", .string "7"), ("note", .null), ("city", .string "Oslo"),
          ("street", .string "Elm")])]

def fairShown : Document :=
  [("place",
      .document
        [("city", .string "Oslo"),
          ("host", (Store.numbered "Author" 7).toValue)]),
    ("days",
      .array [.document [("day", .int .short 3), ("note", .null)]]),
    ("id", .string "1"), ("ts", .int .long 2)]

theorem Manager.create_reads_back_fair :
    exists left,
      (Manager.memory (fun _ => 0) fairModel).create fairData noFair =
        .ok fairShown left ∧
      noFair.find? (Store.numbered "Fair" 1) = none ∧
      Keyed.get? fairShown "code" = none ∧
      (Manager.memory (fun _ => 5) fairModel).get "1" left =
        .ok fairShown left := by
  have hnamed : fairModel.WellNamed := by
    constructor <;> decide
  have hreach : noFair.Reachable := Store.LeadsTo.start.afterAll _ _
  have hdata : (Value.document fairData).DistinctKeys := by
    simp [fairData, Value.DistinctKeys, Value.DistinctKeysInEntries,
      Value.DistinctKeysInItems, Keyed.keys]
  have hcreate : (Manager.memory (fun _ => 0) fairModel).create fairData noFair =
      .ok fairShown (noFair.after
        ((Manager.memory (fun _ => 0) fairModel).create fairData)) := by
    rfl
  rcases Manager.create_reads_back hnamed (by decide) (by decide) hreach hdata
      hcreate with
    ⟨id, admitted, hid, hnew, _, _, _, _, hhidden, hget⟩
  have hfirst : id = "1" := by
    cases hid
    rfl
  rw [hfirst] at hnew hget
  exact ⟨_, hcreate, hnew, hhidden "code" .string FieldOptions.plain
    (by simp [fairModel]), hget _⟩

end DocumentMapper
