import DocumentMapper.Proofs.KeyOrder
import DocumentMapper.Schema.Parse

/-!
# Shapes

A value has the shape of a schema when parsing it changes nothing but the order of
keys.  What parsing leaves has the shape of its schema, so parsing twice is the
same as parsing once.
-/

namespace DocumentMapper
namespace Schema

/-- Induction over a schema, the schemas of an object's keys being known together. -/
@[induction_eliminator] theorem induction {motive : Schema -> Prop}
    (any : motive any) (string : motive string) (number : motive number)
    (boolean : motive boolean)
    (oneOf : forall options, motive (oneOf options))
    (object : forall fields,
      (forall field, field ∈ fields -> motive field.2) ->
        motive (object fields))
    (array : forall item, motive item -> motive (array item))
    (optional : forall inner, motive inner -> motive (optional inner))
    (omittable : forall inner, motive inner -> motive (omittable inner))
    (never : motive never) (hidden : motive hidden)
    (reference : forall collection, motive (reference collection))
    (schema : Schema) : motive schema :=
  @Schema.rec motive
    (fun fields => forall field, field ∈ fields -> motive field.2)
    (fun field => motive field.2)
    any string number boolean oneOf object array optional omittable never hidden
    reference
    (fun _ h => by cases h)
    (fun _ _ hfield hrest => List.forall_mem_cons.mpr ⟨hfield, hrest⟩)
    (fun _ _ h => h)
    schema

mutual

def DistinctKeys : Schema -> Prop
  | object fields => (Keyed.keys fields).Nodup ∧ DistinctKeysInFields fields
  | array item => DistinctKeys item
  | optional inner => DistinctKeys inner
  | omittable inner => DistinctKeys inner
  | _ => True

def DistinctKeysInFields : List (String × Schema) -> Prop
  | [] => True
  | (_, schema) :: rest => DistinctKeys schema ∧ DistinctKeysInFields rest

end

theorem distinctKeysInFields_iff {fields : List (String × Schema)} :
    DistinctKeysInFields fields <->
      forall field, field ∈ fields -> field.2.DistinctKeys := by
  induction fields with
  | nil =>
      simp [DistinctKeysInFields]
  | cons field rest ih =>
      rw [DistinctKeysInFields, ih, List.forall_mem_cons]

/-!
## Values of a shape
-/

/-- The value is a reference into a collection, its keys being distinct on the two
levels that count. -/
def ReferenceInto (collection : String) (value : Value) : Prop :=
  exists entries target id,
    value = .document entries ∧ (Keyed.keys entries).Nodup ∧
      Keyed.get? entries Reference.key = some (.document target) ∧
      (Keyed.keys target).Nodup ∧
      Keyed.get? target "collection" = some (.string collection) ∧
      Keyed.get? target "id" = some (.string id)

mutual

def Shaped : Schema -> Value -> Prop
  | any, _ => True
  | string, value => exists s, value = .string s
  | number, value => value.isNumber = true
  | boolean, value => exists b, value = .bool b
  | oneOf options, value => exists s, s ∈ options ∧ value = .string s
  | object fields, value =>
      exists entries, value = .document entries ∧ (Keyed.keys entries).Nodup ∧
        (forall key, key ∈ Keyed.keys entries -> key ∈ Keyed.keys fields) ∧
        ShapedFields fields entries
  | array item, value =>
      exists items, value = .array items ∧
        forall element, element ∈ items -> Shaped item element
  | optional inner, value => value = .null ∨ Shaped inner value
  | omittable inner, value => Shaped inner value
  | never, value => value = .null
  | hidden, value => value = .null
  | reference collection, value => ReferenceInto collection value

/-- A key that is missing counts as a null, unless it may be missing. -/
def ShapedFields : List (String × Schema) -> Document -> Prop
  | [], _ => True
  | (key, schema) :: rest, entries =>
      (match Keyed.get? entries key with
        | some value => schema.isHidden = false ∧ Shaped schema value
        | none => schema.isOmittable = true ∨ Shaped schema .null) ∧
        ShapedFields rest entries

end

def ShapedAt (schema : Schema) : Option Value -> Prop
  | some value => schema.isHidden = false ∧ schema.Shaped value
  | none => schema.isOmittable = true ∨ schema.Shaped .null

theorem shapedFields_iff {fields : List (String × Schema)} {entries : Document} :
    ShapedFields fields entries <->
      forall field, field ∈ fields ->
        field.2.ShapedAt (Keyed.get? entries field.1) := by
  induction fields with
  | nil =>
      simp [ShapedFields]
  | cons field rest ih =>
      rw [List.forall_mem_cons, <- ih, ShapedFields]
      cases Keyed.get? entries field.1 <;> exact Iff.rfl

/-!
## Parsing what has the shape already
-/

theorem shape_null (schema : Schema) : schema.shape .null = .null := by
  induction schema with
  | optional inner ih =>
      rw [shape, ih]
  | omittable inner ih =>
      rw [shape, ih]
  | _ =>
      rfl

def issuesAtKey (schema : Schema) (path : List String) :
    Option Value -> List Issue
  | some value => schema.issuesAt path value
  | none => if schema.isOmittable then [] else schema.issuesAt path .null

theorem issuesOfFields_cons (key : String) (schema : Schema)
    (rest : List (String × Schema)) (path : List String) (entries : Document) :
    issuesOfFields ((key, schema) :: rest) path entries =
      schema.issuesAtKey (path ++ [key]) (Keyed.get? entries key) ++
        issuesOfFields rest path entries := by
  rw [issuesOfFields]
  cases Keyed.get? entries key <;> rfl

theorem issuesOfFields_eq_nil_iff {fields : List (String × Schema)}
    {path : List String} {entries : Document} :
    issuesOfFields fields path entries = [] <->
      forall field, field ∈ fields ->
        field.2.issuesAtKey (path ++ [field.1])
          (Keyed.get? entries field.1) = [] := by
  induction fields with
  | nil =>
      simp [issuesOfFields]
  | cons field rest ih =>
      rw [List.forall_mem_cons, <- ih, issuesOfFields_cons, List.append_eq_nil_iff]

theorem issuesAt_array_eq_nil_iff {item : Schema} {path : List String}
    {items : List Value} :
    (array item).issuesAt path (.array items) = [] <->
      forall place (h : place < items.length),
        item.issuesAt (path ++ [toString place]) items[place] = [] := by
  rw [issuesAt, List.flatten_eq_nil_iff]
  constructor
  · intro hall place hplace
    exact hall _ (List.mem_mapIdx.mpr ⟨place, hplace, rfl⟩)
  · intro hall found hfound
    rcases List.mem_mapIdx.mp hfound with ⟨place, hplace, heq⟩
    rw [<- heq]
    exact hall place hplace

theorem ReferenceInto.ofValue? {collection : String} {value : Value}
    (h : ReferenceInto collection value) :
    exists id, Reference.ofValue? value =
      some { collection := collection, id := id } := by
  rcases h with ⟨entries, target, id, hvalue, _, hkey, _, hcollection, hid⟩
  refine ⟨id, ?_⟩
  simp [hvalue, Reference.ofValue?, Value.document?, hkey, hcollection, hid,
    Value.string?]

theorem ReferenceInto.shapeReference {collection : String} {value : Value}
    (h : ReferenceInto collection value) :
    shapeReference collection value = some value := by
  rcases h.ofValue? with ⟨id, hread⟩
  rcases h with ⟨entries, target, held, hvalue, _⟩
  rw [hvalue] at hread ⊢
  simp [Schema.shapeReference, hread]

theorem issuesAt_of_shaped {schema : Schema} {path : List String} {value : Value}
    (h : schema.Shaped value) : schema.issuesAt path value = [] := by
  induction schema generalizing path value with
  | any =>
      rfl
  | string =>
      rcases h with ⟨s, hvalue⟩
      rw [hvalue]
      rfl
  | number =>
      have hnumber : value.isNumber = true := h
      rw [issuesAt, if_pos hnumber]
  | boolean =>
      rcases h with ⟨b, hvalue⟩
      rw [hvalue]
      rfl
  | oneOf options =>
      rcases h with ⟨s, hs, hvalue⟩
      rw [hvalue, issuesAt]
      exact if_pos hs
  | object fields ih =>
      rcases h with ⟨entries, hvalue, _, _, hfields⟩
      rw [hvalue, issuesAt]
      apply issuesOfFields_eq_nil_iff.mpr
      intro field hmem
      have hat := shapedFields_iff.mp hfields field hmem
      cases hfound : Keyed.get? entries field.1 with
      | some found =>
          rw [hfound] at hat
          exact ih field hmem hat.2
      | none =>
          rw [hfound] at hat
          cases hat with
          | inl homittable => exact if_pos homittable
          | inr hnull =>
              rw [issuesAtKey, ih field hmem hnull]
              exact ite_self []
  | array item ih =>
      rcases h with ⟨items, hvalue, hitems⟩
      rw [hvalue, issuesAt_array_eq_nil_iff]
      exact fun place hplace => ih (hitems _ (List.getElem_mem hplace))
  | optional inner ih =>
      rw [issuesAt]
      cases h with
      | inl hnull =>
          rw [hnull]
          rfl
      | inr hinner =>
          rw [ih hinner]
          exact ite_self []
  | omittable inner ih =>
      exact ih h
  | never =>
      have hnull : value = .null := h
      rw [hnull]
      rfl
  | hidden =>
      rfl
  | reference collection =>
      rw [issuesAt, ReferenceInto.shapeReference h]

/-!
## What parsing leaves
-/

def shapeAt (schema : Schema) : Option Value -> Option Value
  | some value => if schema.isHidden then none else some (schema.shape value)
  | none => none

theorem shapeFields_cons (key : String) (schema : Schema)
    (rest : List (String × Schema)) (entries shaped : Document) :
    shapeFields ((key, schema) :: rest) entries shaped =
      shapeFields rest entries
        (match schema.shapeAt (Keyed.get? entries key) with
          | some value => Keyed.insert shaped key value
          | none => shaped) := by
  rw [shapeFields]
  cases Keyed.get? entries key with
  | none =>
      rfl
  | some value =>
      cases hhidden : schema.isHidden <;> simp [shapeAt, hhidden]

theorem nodup_keys_shapeFields {fields : List (String × Schema)}
    {entries shaped : Document} (h : (Keyed.keys shaped).Nodup) :
    (Keyed.keys (shapeFields fields entries shaped)).Nodup := by
  induction fields generalizing shaped with
  | nil =>
      exact h
  | cons field rest ih =>
      rw [shapeFields_cons]
      apply ih
      split
      · exact Keyed.nodup_keys_insert _ _ h
      · exact h

theorem get?_shapeFields {fields : List (String × Schema)}
    (h : (Keyed.keys fields).Nodup) (entries shaped : Document)
    (wanted : String) :
    Keyed.get? (shapeFields fields entries shaped) wanted =
      ((Keyed.get? fields wanted).bind fun schema =>
        schema.shapeAt (Keyed.get? entries wanted)).or
          (Keyed.get? shaped wanted) := by
  induction fields generalizing shaped with
  | nil =>
      rfl
  | cons field rest ih =>
      rcases field with ⟨key, schema⟩
      have hcons : key ∉ Keyed.keys rest ∧ (Keyed.keys rest).Nodup :=
        List.nodup_cons.mp h
      rw [shapeFields_cons, ih hcons.2, Keyed.get?_cons]
      by_cases hkey : key = wanted
      · rw [if_pos hkey, <- hkey, Keyed.get?_eq_none_iff.mpr hcons.1]
        cases hshaped : schema.shapeAt (Keyed.get? entries key) with
        | none => simp [hshaped]
        | some value => simp [hshaped, Keyed.get?_insert]
      · rw [if_neg hkey]
        cases schema.shapeAt (Keyed.get? entries key) with
        | none => rfl
        | some value => simp [Keyed.get?_insert, hkey]

theorem get?_shapeFields_nil {fields : List (String × Schema)}
    (h : (Keyed.keys fields).Nodup) (entries : Document) (wanted : String) :
    Keyed.get? (shapeFields fields entries []) wanted =
      (Keyed.get? fields wanted).bind fun schema =>
        schema.shapeAt (Keyed.get? entries wanted) := by
  rw [get?_shapeFields h, Keyed.get?_nil, Option.or_none]

/-- Parsing looks at a document only under the keys that the object declares. -/
theorem shapeFields_congr {fields : List (String × Schema)} {entries other : Document}
    (h : forall field, field ∈ fields ->
      Keyed.get? entries field.1 = Keyed.get? other field.1)
    (shaped : Document) :
    shapeFields fields entries shaped = shapeFields fields other shaped := by
  induction fields generalizing shaped with
  | nil =>
      rfl
  | cons field rest ih =>
      rw [List.forall_mem_cons] at h
      rw [shapeFields_cons, shapeFields_cons, h.1, ih h.2]

theorem filter_shapeFields (keeps : String -> Bool) (fields : List (String × Schema))
    (entries shaped : Document) :
    (shapeFields fields entries shaped).filter (fun entry => keeps entry.1) =
      shapeFields (fields.filter fun field => keeps field.1) entries
        (shaped.filter fun entry => keeps entry.1) := by
  induction fields generalizing shaped with
  | nil =>
      rfl
  | cons field rest ih =>
      rcases field with ⟨key, schema⟩
      rw [shapeFields_cons, ih, List.filter_cons]
      cases hkey : keeps key with
      | true =>
          rw [if_pos rfl, shapeFields_cons]
          cases schema.shapeAt (Keyed.get? entries key) with
          | none => rfl
          | some value => simp [Keyed.filter_insert, hkey]
      | false =>
          cases schema.shapeAt (Keyed.get? entries key) with
          | none => simp
          | some value => simp [Keyed.filter_insert, hkey]

theorem referenceInto_toValue (reference : Reference) :
    ReferenceInto reference.collection reference.toValue := by
  refine ⟨_, _, reference.id, rfl, ?_, rfl, ?_, rfl, rfl⟩ <;> simp [Keyed.keys]

theorem referenceInto_of_ofValue? {value : Value} {target : Reference}
    (hvalue : value.DistinctKeys)
    (h : Reference.ofValue? value = some target) :
    ReferenceInto target.collection value := by
  simp only [Reference.ofValue?, Option.bind_eq_bind, Option.bind_eq_some_iff,
    Value.document?_eq_some, Value.string?_eq_some] at h
  rcases h with ⟨entries, hentries, held, hheld, inside, hinside, collection,
    hcollection, id, hid, name, hname, number, hnumber, htarget⟩
  cases htarget
  rw [hentries] at hvalue
  have hdistinct : held.DistinctKeys := hvalue.of_get? hheld
  rw [hinside] at hdistinct hheld
  rw [hname] at hcollection
  rw [hnumber] at hid
  exact ⟨entries, inside, number, hentries, hvalue.1, hheld, hdistinct.1,
    hcollection, hid⟩

theorem shaped_shapeReference {collection : String} {value left : Value}
    (hvalue : value.DistinctKeys)
    (h : shapeReference collection value = some left) :
    ReferenceInto collection left := by
  unfold shapeReference at h
  split at h
  · cases h
    exact referenceInto_toValue _
  · split at h
    · next target hread =>
        split at h
        · next hcollection =>
            cases h
            rw [<- hcollection]
            exact referenceInto_of_ofValue? hvalue hread
        · cases h
    · cases h

theorem declared_of_mem_shapeFields {fields : List (String × Schema)}
    (h : (Keyed.keys fields).Nodup) {entries : Document} {key : String}
    (hkey : key ∈ Keyed.keys (shapeFields fields entries [])) :
    key ∈ Keyed.keys fields := by
  apply Decidable.byContradiction
  intro hundeclared
  apply Keyed.get?_eq_none_iff.mp ?_ hkey
  rw [get?_shapeFields_nil h, Keyed.get?_eq_none_iff.mpr hundeclared]
  rfl

theorem shapedAt_shapeAt {schema : Schema}
    (hshape : forall {path : List String} {value : Value}, value.DistinctKeys ->
      schema.issuesAt path value = [] -> schema.Shaped (schema.shape value))
    {path : List String} {found : Option Value}
    (hfound : forall value, found = some value -> value.DistinctKeys)
    (h : schema.issuesAtKey path found = []) :
    schema.ShapedAt (schema.shapeAt found) := by
  cases found with
  | none =>
      cases homittable : schema.isOmittable with
      | true =>
          exact Or.inl homittable
      | false =>
          rw [issuesAtKey, homittable] at h
          have hempty : Value.null.DistinctKeys := trivial
          have hnull := hshape hempty h
          rw [shape_null] at hnull
          exact Or.inr hnull
  | some value =>
      have hshaped := hshape (hfound value rfl) h
      rw [shapeAt]
      cases hhidden : schema.isHidden with
      | false =>
          exact ⟨hhidden, hshaped⟩
      | true =>
          cases schema with
          | hidden => exact Or.inr rfl
          | _ => cases hhidden

theorem issuesAt_item_eq_nil {item : Schema} {path : List String}
    {items : List Value} (h : (array item).issuesAt path (.array items) = [])
    {element : Value} (helement : element ∈ items) :
    exists inside, item.issuesAt inside element = [] := by
  rcases List.getElem_of_mem helement with ⟨place, hplace, hat⟩
  exact ⟨_, hat ▸ issuesAt_array_eq_nil_iff.mp h place hplace⟩

theorem shaped_shape {schema : Schema} {path : List String} {value : Value}
    (hschema : schema.DistinctKeys) (hvalue : value.DistinctKeys)
    (h : schema.issuesAt path value = []) :
    schema.Shaped (schema.shape value) := by
  induction schema generalizing path value with
  | any =>
      trivial
  | string =>
      cases value with
      | string s => exact ⟨s, rfl⟩
      | _ => cases h
  | number =>
      rw [issuesAt] at h
      split at h
      · next hnumber => exact hnumber
      · cases h
  | boolean =>
      cases value with
      | bool b => exact ⟨b, rfl⟩
      | _ => cases h
  | oneOf options =>
      cases value with
      | string s =>
          rw [issuesAt] at h
          split at h
          · next hs => exact ⟨s, hs, rfl⟩
          · cases h
      | _ => cases h
  | object fields ih =>
      cases value with
      | document entries =>
          have hissues : issuesOfFields fields path entries = [] := h
          have hnodup : (Keyed.keys fields).Nodup := hschema.1
          refine ⟨shapeFields fields entries [], rfl,
            nodup_keys_shapeFields List.nodup_nil, ?_, ?_⟩
          · exact fun key => declared_of_mem_shapeFields hnodup
          · apply shapedFields_iff.mpr
            intro field hmem
            rw [get?_shapeFields_nil hnodup, Keyed.get?_of_mem hnodup hmem,
              Option.bind_some]
            have hdistinct := distinctKeysInFields_iff.mp hschema.2 field hmem
            exact shapedAt_shapeAt (ih field hmem hdistinct)
              (fun found hfound => hvalue.of_get? hfound)
              (issuesOfFields_eq_nil_iff.mp hissues field hmem)
      | _ => cases h
  | array item ih =>
      cases value with
      | array items =>
          refine ⟨_, rfl, ?_⟩
          intro element helement
          rcases List.mem_map.mp helement with ⟨given, hgiven, hshape⟩
          rw [<- hshape]
          rcases issuesAt_item_eq_nil h hgiven with ⟨inside, hissues⟩
          exact ih hschema (hvalue.of_mem hgiven) hissues
      | _ => cases h
  | optional inner ih =>
      rw [issuesAt] at h
      split at h
      · next hnull =>
          rw [Value.isNull_iff.mp hnull]
          exact Or.inl (shape_null _)
      · exact Or.inr (ih hschema hvalue h)
  | omittable inner ih =>
      exact ih hschema hvalue h
  | never =>
      rfl
  | hidden =>
      rfl
  | reference collection =>
      rw [issuesAt] at h
      rw [shape]
      cases hleft : shapeReference collection value with
      | none =>
          rw [hleft] at h
          cases h
      | some left =>
          exact shaped_shapeReference hvalue hleft

theorem alike_shape {schema : Schema} {value : Value}
    (hschema : schema.DistinctKeys) (h : schema.Shaped value) :
    Value.Alike (schema.shape value) value := by
  induction schema generalizing value with
  | object fields ih =>
      rcases h with ⟨entries, hvalue, _, hdeclared, hfields⟩
      rw [hvalue, shape]
      apply Value.alike_document
      intro key
      rw [get?_shapeFields_nil hschema.1]
      cases hfound : Keyed.get? entries key with
      | none =>
          cases Keyed.get? fields key <;> rfl
      | some found =>
          have hmem : key ∈ Keyed.keys fields :=
            hdeclared key (Keyed.mem_keys_of_mem (Keyed.mem_of_get? hfound))
          rcases List.mem_map.mp hmem with ⟨field, hfield, hkey⟩
          have hat := shapedFields_iff.mp hfields field hfield
          rw [<- hkey] at hfound ⊢
          rw [hfound] at hat
          rw [Keyed.get?_of_mem hschema.1 hfield, Option.bind_some, shapeAt,
            if_neg (by simp [hat.1])]
          exact congrArg some
            (ih field hfield (distinctKeysInFields_iff.mp hschema.2 field hfield)
              hat.2)
  | array item ih =>
      rcases h with ⟨items, hvalue, hitems⟩
      rw [hvalue, shape]
      exact Value.alike_array_map fun element helement =>
        ih hschema (hitems element helement)
  | optional inner ih =>
      rw [shape]
      cases h with
      | inl hnull =>
          rw [hnull, shape_null]
          rfl
      | inr hinner =>
          exact ih hschema hinner
  | omittable inner ih =>
      exact ih hschema h
  | never =>
      have hnull : value = .null := h
      rw [hnull]
      rfl
  | hidden =>
      have hnull : value = .null := h
      rw [hnull]
      rfl
  | reference collection =>
      rw [shape, ReferenceInto.shapeReference h]
      rfl
  | _ =>
      rfl

/-!
## Parsing
-/

theorem parse_of_shaped {schema : Schema} {value : Value}
    (hschema : schema.DistinctKeys) (h : schema.Shaped value) :
    exists parsed, schema.parse value = .ok parsed ∧
      Value.Alike parsed value :=
  ⟨schema.shape value,
    parse_eq_ok_iff.mpr ⟨issuesAt_of_shaped h, rfl⟩, alike_shape hschema h⟩

theorem parseDocument_ok {fields : List (String × Schema)}
    {data parsed : Document}
    (h : (object fields).parseDocument data = .ok parsed) :
    issuesOfFields fields [] data = [] ∧ parsed = shapeFields fields data [] := by
  have hissues : (object fields).issues (.document data) = [] := by
    cases hfound : (object fields).issues (.document data) with
    | nil => rfl
    | cons issue rest =>
        simp [parseDocument, parse, hfound, bind, Except.bind] at h
  refine ⟨hissues, ?_⟩
  simp [parseDocument, parse, hissues, bind, Except.bind, pure, Except.pure,
    shape, Value.document?] at h
  exact h.symm

theorem shaped_of_parseDocument {fields : List (String × Schema)}
    {data parsed : Document} (hschema : (object fields).DistinctKeys)
    (hdata : (Value.document data).DistinctKeys)
    (h : (object fields).parseDocument data = .ok parsed) :
    (object fields).Shaped (.document parsed) := by
  rcases parseDocument_ok h with ⟨hissues, hparsed⟩
  have hnone : (object fields).issues (.document data) = [] := hissues
  rw [hparsed]
  exact shaped_shape hschema hdata hnone

end Schema
end DocumentMapper
