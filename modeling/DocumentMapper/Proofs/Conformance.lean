import DocumentMapper.Proofs.Settled

/-!
# Conforming values

Which values a schema takes, said part by part and without issues or paths.  Parsing
answers exactly where the value conforms.

What parsing leaves of a conforming value conforms too, so it can be parsed again.
-/

namespace DocumentMapper
namespace Schema

mutual

def Conforms : Schema -> Value -> Prop
  | any, _ => True
  | hidden, _ => True
  | never, value => value = .null
  | optional inner, value => value = .null ∨ Conforms inner value
  | omittable inner, value => Conforms inner value
  | string, value => exists s, value = .string s
  | number, value =>
      (exists width n, value = .int width n) ∨ exists x, value = .double x
  | boolean, value => exists b, value = .bool b
  | oneOf options, value => exists s, s ∈ options ∧ value = .string s
  | reference collection, value =>
      (exists id, value = .string id) ∨
        exists id,
          Reference.ofValue? value = some { collection := collection, id := id }
  | array item, value =>
      exists items, value = .array items ∧
        forall element, element ∈ items -> Conforms item element
  | object fields, value =>
      exists entries, value = .document entries ∧ ConformsInFields fields entries

/-- A key that is missing counts as a null, unless it may be missing. -/
def ConformsInFields : List (String × Schema) -> Document -> Prop
  | [], _ => True
  | (key, schema) :: rest, entries =>
      (match Keyed.get? entries key with
        | some value => Conforms schema value
        | none => schema.isOmittable = true ∨ Conforms schema .null) ∧
        ConformsInFields rest entries

end

def ConformsAtKey (schema : Schema) : Option Value -> Prop
  | some value => schema.Conforms value
  | none => schema.isOmittable = true ∨ schema.Conforms .null

theorem conformsInFields_iff {fields : List (String × Schema)}
    {entries : Document} :
    ConformsInFields fields entries <->
      forall field, field ∈ fields ->
        field.2.ConformsAtKey (Keyed.get? entries field.1) := by
  induction fields with
  | nil =>
      simp [ConformsInFields]
  | cons field rest ih =>
      rw [List.forall_mem_cons, <- ih, ConformsInFields]
      cases Keyed.get? entries field.1 <;> exact Iff.rfl

theorem conforms_object {fields : List (String × Schema)} {entries : Document} :
    (object fields).Conforms (.document entries) <->
      forall field, field ∈ fields ->
        field.2.ConformsAtKey (Keyed.get? entries field.1) := by
  simp [Conforms, conformsInFields_iff]

theorem conforms_array {item : Schema} {items : List Value} :
    (array item).Conforms (.array items) <->
      forall element, element ∈ items -> item.Conforms element := by
  simp [Conforms]

/-!
## Conforming values have no issues
-/

theorem shapeReference_isSome_iff {collection : String} {value : Value} :
    (shapeReference collection value).isSome = true <->
      (reference collection).Conforms value := by
  rw [Conforms]
  cases value with
  | string id =>
      simp [shapeReference]
  | document entries =>
      cases hread : Reference.ofValue? (.document entries) with
      | none =>
          simp [shapeReference, hread]
      | some target =>
          rcases target with ⟨held, id⟩
          by_cases hheld : held = collection <;>
            simp [shapeReference, hread, hheld]
  | _ =>
      simp [shapeReference, Reference.ofValue?, Value.document?]

theorem issuesAtKey_eq_nil_iff {schema : Schema} {path : List String}
    (h : forall value, schema.issuesAt path value = [] <-> schema.Conforms value)
    (found : Option Value) :
    schema.issuesAtKey path found = [] <-> schema.ConformsAtKey found := by
  cases found with
  | some value =>
      exact h value
  | none =>
      cases homittable : schema.isOmittable with
      | true => simp [issuesAtKey, ConformsAtKey, homittable]
      | false => simpa [issuesAtKey, ConformsAtKey, homittable] using h .null

theorem issuesAt_eq_nil_iff_conforms {schema : Schema} {path : List String}
    {value : Value} :
    schema.issuesAt path value = [] <-> schema.Conforms value := by
  induction schema generalizing path value with
  | any =>
      exact iff_of_true rfl trivial
  | hidden =>
      exact iff_of_true rfl trivial
  | string =>
      cases value <;> simp [issuesAt, Conforms]
  | number =>
      cases value <;> simp [issuesAt, Conforms, Value.isNumber]
  | boolean =>
      cases value <;> simp [issuesAt, Conforms]
  | oneOf options =>
      cases value <;> simp [issuesAt, Conforms]
  | never =>
      simp [issuesAt, Conforms, Value.isNull_iff]
  | reference collection =>
      rw [<- shapeReference_isSome_iff, issuesAt]
      cases shapeReference collection value <;> simp
  | optional inner ih =>
      rw [issuesAt, Conforms, <- @ih path]
      by_cases hnull : value = .null <;> simp [hnull, Value.isNull_iff]
  | omittable inner ih =>
      exact ih
  | array item ih =>
      cases value with
      | array items =>
          rw [issuesAt_array_eq_nil_iff, conforms_array,
            List.forall_mem_iff_getElem]
          exact forall₂_congr fun place hplace => ih
      | _ =>
          simp [issuesAt, Conforms]
  | object fields ih =>
      cases value with
      | document entries =>
          rw [issuesAt, issuesOfFields_eq_nil_iff, conforms_object]
          exact forall₂_congr fun field hfield =>
            issuesAtKey_eq_nil_iff (fun _ => ih field hfield) _
      | _ =>
          simp [issuesAt, Conforms]

theorem parse_eq_ok_iff_conforms {schema : Schema} {value parsed : Value} :
    schema.parse value = .ok parsed <->
      schema.Conforms value ∧ schema.shape value = parsed := by
  rw [parse_eq_ok_iff, issues, issuesAt_eq_nil_iff_conforms]

/-!
## What is left of a conforming value
-/

/-- What is left under a key is taken again: a key that is missing stays so, and one
that is only written goes missing, which its schema takes. -/
theorem conformsAtKey_shapeAt {schema : Schema}
    (h : forall value, schema.Conforms value -> schema.Conforms (schema.shape value))
    {found : Option Value} (hfound : schema.ConformsAtKey found) :
    schema.ConformsAtKey (schema.shapeAt found) := by
  cases found with
  | none =>
      exact hfound
  | some value =>
      rw [shapeAt]
      cases hhidden : schema.isHidden with
      | false =>
          exact h value hfound
      | true =>
          cases schema with
          | hidden => exact Or.inr trivial
          | _ => cases hhidden

theorem conforms_shapeReference {collection : String} {value : Value}
    (h : (reference collection).Conforms value) :
    (reference collection).Conforms ((reference collection).shape value) := by
  rcases Option.isSome_iff_exists.mp (shapeReference_isSome_iff.mpr h) with
    ⟨left, hleft⟩
  rw [shape, hleft, Option.getD_some, <- shapeReference_isSome_iff,
    shapeReference_shapeReference hleft]
  rfl

theorem conforms_shape {schema : Schema} (hschema : schema.DistinctKeys)
    {value : Value} (h : schema.Conforms value) :
    schema.Conforms (schema.shape value) := by
  induction schema generalizing value with
  | object fields ih =>
      rcases h with ⟨entries, hvalue, hfields⟩
      rw [hvalue, shape, conforms_object]
      intro field hfield
      rw [get?_shapeFields_nil hschema.1, Keyed.get?_of_mem hschema.1 hfield,
        Option.bind_some]
      exact conformsAtKey_shapeAt
        (fun _ => ih field hfield (distinctKeysInFields_iff.mp hschema.2 field hfield))
        (conformsInFields_iff.mp hfields field hfield)
  | array item ih =>
      rcases h with ⟨items, hvalue, hitems⟩
      rw [hvalue, shape, conforms_array, List.forall_mem_map]
      exact fun element helement => ih hschema (hitems element helement)
  | optional inner ih =>
      cases h with
      | inl hnull =>
          rw [hnull, shape, shape_null]
          exact Or.inl rfl
      | inr hinner =>
          exact Or.inr (ih hschema hinner)
  | omittable inner ih =>
      exact ih hschema h
  | reference collection =>
      exact conforms_shapeReference h
  | never =>
      exact rfl
  | any =>
      trivial
  | hidden =>
      trivial
  | _ =>
      exact h

/-!
# Main statement
-/

theorem DistinctKeys.relaxed {schema : Schema} (h : schema.DistinctKeys) :
    schema.relaxed.DistinctKeys := by
  cases schema with
  | object fields => exact distinctKeys_relaxed h
  | _ => exact h

theorem parse_parsed {schema : Schema} (hschema : schema.DistinctKeys)
    {value parsed : Value} (h : schema.parse value = .ok parsed) :
    schema.parse parsed = .ok parsed := by
  rw [parse_eq_ok_iff_conforms] at h ⊢
  rcases h with ⟨hconforms, hshape⟩
  rw [<- hshape]
  exact ⟨conforms_shape hschema hconforms, shape_shape hschema value⟩

theorem parsing_is_idempotent {schema : Schema} (hschema : schema.DistinctKeys)
    (value parsed : Value) :
    (schema.parse value = .ok parsed -> schema.parse parsed = .ok parsed) ∧
      (schema.relaxed.parse value = .ok parsed ->
        schema.relaxed.parse parsed = .ok parsed) :=
  ⟨parse_parsed hschema, parse_parsed hschema.relaxed⟩

/-!
The statement at one schema and two values: an id becomes a reference, a key that is
only written is dropped and so is one that is not declared, and a null inside a list
stays.
-/

def tripSchema : Schema :=
  .object
    [("guide", .reference "Person"), ("pin", .hidden),
      ("stops", .array (.optional .string)), ("note", .omittable .string)]

def tripData : Value :=
  .document
    [("pin", .int .short 7), ("color", .string "red"),
      ("stops", .array [.string "Oslo", .null]), ("guide", .string "4")]

def tripParsed : Value :=
  .document
    [("guide", (Reference.mk "Person" "4").toValue),
      ("stops", .array [.string "Oslo", .null])]

def tripPatch : Value :=
  .document [("color", .string "red"), ("stops", .array [.null])]

def tripChange : Value :=
  .document [("stops", .array [.null])]

theorem parsing_is_idempotent_trip :
    tripSchema.DistinctKeys ∧
      tripSchema.parse tripData = .ok tripParsed ∧
      tripSchema.parse tripParsed = .ok tripParsed ∧
      tripSchema.relaxed.parse tripPatch = .ok tripChange ∧
      tripSchema.relaxed.parse tripChange = .ok tripChange := by
  have hschema : tripSchema.DistinctKeys := by
    simp [tripSchema, DistinctKeys, DistinctKeysInFields, Keyed.keys]
  have hdata : tripSchema.parse tripData = .ok tripParsed := by
    rfl
  have hpatch : tripSchema.relaxed.parse tripPatch = .ok tripChange := by
    rfl
  exact ⟨hschema, hdata, (parsing_is_idempotent hschema _ _).1 hdata, hpatch,
    (parsing_is_idempotent hschema _ _).2 hpatch⟩

end Schema
end DocumentMapper
