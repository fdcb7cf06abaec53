import DocumentMapper.Proofs.Extensions
import DocumentMapper.Proofs.Instances
import DocumentMapper.Proofs.Numbers

/-!
# Refused data

A model of plain scalars is written and read with the same schemas, so what was
admitted is accepted when it is read back, and a creation or an update that answers
a validation error has been refused before anything was written.

There is one exception.  A key that may be missing and may not be null is read back
as a null where it is missing, which is then found wrong after the write.
-/

namespace DocumentMapper

/-!
## Plain models
-/

namespace Model

/-- Every field is a scalar with one schema for writing and reading. -/
def Plain (model : Model) : Prop :=
  forall name field, (name, field) ∈ model.fields ->
    exists schema options, field = .scalar schema schema options ∧
      schema.DistinctKeys

/-- The document has nothing for a field that may be missing but may not be
null. -/
def LeftOut (model : Model) (document : Document) : Prop :=
  exists name schema options,
    (name, .scalar schema schema options) ∈ model.fields ∧
      schema.isOmittable = true ∧ schema.accepts .null = false ∧
      document.at? (dataPath name) = none

variable {model : Model}

theorem Plain.distinctKeys (h : model.Plain) (hnamed : model.WellNamed) :
    model.writeSchema.DistinctKeys := by
  constructor
  · have hkeys : Keyed.keys (model.fields.map fun field =>
        (field.1, field.2.writeSchema)) = Keyed.keys model.fields := by
      simp [Keyed.keys]
    rw [hkeys]
    exact hnamed.distinct
  · apply Schema.distinctKeysInFields_iff.mpr
    intro field hmem
    rcases List.mem_map.mp hmem with ⟨⟨name, own⟩, hown, heq⟩
    rcases h name own hown with ⟨schema, options, hscalar, hschema⟩
    rw [<- heq, hscalar]
    exact hschema

theorem Plain.perField_collections (h : model.Plain) :
    model.perField Field.collections = [] := by
  apply List.flatMap_eq_nil_iff.mpr
  rintro ⟨name, field⟩ hfield
  rcases h name field hfield with ⟨schema, options, hscalar, _⟩
  rw [hscalar]
  rfl

theorem Plain.namesApart (h : model.Plain)
    (hfree : model.name ∉ Reference.reserved) : Store.NamesApart [model] where
  free other hother := by
    rw [List.mem_singleton.mp hother]
    exact hfree
  unique one other hone hother _ := by
    rw [List.mem_singleton.mp hone, List.mem_singleton.mp hother]
  links one other definition hone _ hdefinition := by
    rw [List.mem_singleton.mp hone, h.perField_collections] at hdefinition
    cases hdefinition

end Model

/-!
## Reading admitted data
-/

/-- Two fields with these names, and only they, could be mistaken for parts of a
reference. -/
theorem Value.entry?_of_field {model : Model} {data : Document}
    (hnamed : model.WellNamed)
    (hapart : Reference.key ∈ Keyed.keys model.fields ->
      "collection" ∉ Keyed.keys model.fields)
    (hdata : model.writeSchema.Shaped (.document data)) {name : String}
    {field : Field} (hfield : (name, field) ∈ model.fields) :
    Value.entry? data name = Keyed.get? data name := by
  by_cases hcollection : name = "collection"
  · have hkey : Keyed.get? data Reference.key = none := by
      apply Document.get?_key_eq_none hdata
      rintro ⟨other, own⟩ hother heq
      apply hapart (heq ▸ Keyed.mem_keys_of_mem hother)
      rw [<- hcollection]
      exact Keyed.mem_keys_of_mem hfield
    simp [Value.entry?, hkey]
  · exact Value.entry?_eq_get? (hnamed.ne_id hfield).symm hcollection

theorem Schema.accepts_null_of_issuesAt {schema : Schema}
    (hschema : schema.DistinctKeys) {path other : List String}
    (h : schema.issuesAt path .null = []) : schema.issuesAt other .null = [] := by
  have hnull : Value.null.DistinctKeys := trivial
  have hshaped := shaped_shape hschema hnull h
  rw [shape_null] at hshaped
  exact issuesAt_of_shaped hshaped

namespace Model

variable {model : Model} {store : Store}

/-- A field of admitted data that is found wrong when it is read was left out. -/
theorem leftOut_of_issues {data document : Document} (hnamed : model.WellNamed)
    (hapart : Reference.key ∈ Keyed.keys model.fields ->
      "collection" ∉ Keyed.keys model.fields)
    (hdata : Keyed.get? document "data" = some (.document data))
    (hshaped : model.writeSchema.Shaped (.document data))
    (hnull : forall key, Keyed.get? data key ≠ some .null) {name : String}
    {schema : Schema} {options : FieldOptions} (hschema : schema.DistinctKeys)
    (hfield : (name, .scalar schema schema options) ∈ model.fields)
    {path : List String}
    (hissues : schema.issuesAt path
      ((document.at? (dataPath name)).getD .null) ≠ []) :
    model.LeftOut document := by
  have hat := Document.shapedAt_field hshaped hfield
  have hread := Document.at?_dataPath_of_entry hdata
    (Value.entry?_of_field hnamed hapart hshaped hfield)
  cases hfound : Keyed.get? data name with
  | some value =>
      rw [hfound] at hat hread
      have hpresent : value.present? = some value := by
        rw [Value.present?, if_neg]
        intro heq
        rw [Value.isNull_iff.mp heq] at hfound
        exact hnull name hfound
      rw [hread, Option.bind_some, hpresent] at hissues
      exact absurd (Schema.issuesAt_of_shaped hat.2) hissues
  | none =>
      rw [hfound] at hat hread
      rw [hread] at hissues
      refine ⟨name, schema, options, hfield, ?_, ?_, hread⟩
      · cases hat with
        | inl homittable => exact homittable
        | inr habsent => exact absurd (Schema.issuesAt_of_shaped habsent) hissues
      · apply Bool.eq_false_iff.mpr
        intro haccepts
        exact hissues (Schema.accepts_null_of_issuesAt hschema
          (Schema.accepts_iff.mp haccepts))

theorem exists_field_of_issues {document entries : Document} {own start : Reference}
    (hstamped : Document.Stamped own document)
    (hentries : model.ShownAs store start.toValue document entries)
    (hissues : Schema.issuesOfFields model.readFields [] entries ≠ []) :
    exists name field value path, (name, field) ∈ model.fields ∧
      field.read store model.name name start.toValue document = .ok value ∧
      field.readSchema.issuesAt path value ≠ [] := by
  by_contra hnone
  apply hissues
  apply Schema.issuesOfFields_eq_nil_iff.mpr
  intro shown hshown
  cases List.mem_append.mp hshown with
  | inl hown =>
      rcases List.mem_map.mp hown with ⟨⟨name, field⟩, hfield, heq⟩
      rcases hentries.field name field hfield with ⟨value, hvalue, hread⟩
      rw [<- heq, hvalue]
      by_contra hwrong
      exact hnone ⟨name, field, value, _, hfield, hread, hwrong⟩
  | inr hreserved =>
      rcases List.mem_cons.mp hreserved with heq | hlast
      · rw [heq, hentries.id, Document.identity, hstamped.ref,
          Option.bind_some, Reference.ofValue?_toValue]
        rfl
      · rcases hstamped.ts with ⟨timestamp, hts⟩
        rw [List.mem_singleton.mp hlast, hentries.ts, Document.timestamp, hts]
        rfl

theorem leftOut_of_parseInstance (hnamed : model.WellNamed)
    (hplain : model.Plain)
    (hapart : Reference.key ∈ Keyed.keys model.fields ->
      "collection" ∉ Keyed.keys model.fields)
    (hfree : model.name ∉ Reference.reserved) (hstore : store.Consistent)
    (htyped : store.Typed [model]) {id : String} {raw : Value} {error : Error}
    (hread : model.read store
      (Reference.toValue { collection := model.name, id := id }) = .ok raw)
    (hparse : model.parseInstance raw = .error error) :
    exists document,
      store.find? { collection := model.name, id := id } = some document ∧
        model.LeftOut document := by
  rcases hnamed.read_ok hread with
    ⟨reference, document, entries, hreference, hfound, hraw, hentries⟩
  rw [Reference.ofValue?_toValue, Option.some.injEq] at hreference
  rw [<- hreference] at hfound
  rw [hraw] at hparse
  rcases hstore.stamped_of_find? hfound with ⟨own, hstamped⟩
  rcases exists_field_of_issues hstamped hentries (parseInstance_error hparse) with
    ⟨name, field, value, path, hfield, hvalue, hissues⟩
  rcases hplain name field hfield with ⟨schema, options, hscalar, hschema⟩
  rw [hscalar] at hfield hvalue hissues
  rw [Field.read] at hvalue
  cases hvalue
  rcases Store.mem_documentsOf_of_find? hfree hfound with ⟨number, _, hmem⟩
  rcases htyped _ _ hmem model (List.mem_singleton_self model) rfl with
    ⟨data, hdata, hshaped, hnull⟩
  exact ⟨document, hfound, leftOut_of_issues hnamed hapart hdata hshaped hnull
    hschema hfield hissues⟩

theorem leftOut_of_operated {store left : Store} {now : Clock}
    {operation : Operation} (hnamed : model.WellNamed) (hplain : model.Plain)
    (hapart : Reference.key ∈ Keyed.keys model.fields ->
      "collection" ∉ Keyed.keys model.fields)
    (hfree : model.name ∉ Reference.reserved) (hstore : store.Consistent)
    (htyped : store.Typed [model])
    (hoperated : store.Operated now model operation left)
    (hdistinct : operation.DistinctKeys) {id : String} {raw : Value} {error : Error}
    (hread : model.read left
      (Reference.toValue { collection := model.name, id := id }) = .ok raw)
    (hparse : model.parseInstance raw = .error error) :
    exists document,
      left.find? { collection := model.name, id := id } = some document ∧
        model.LeftOut document := by
  have hschemas : forall other, other ∈ [model] ->
      other.writeSchema.DistinctKeys :=
    List.forall_mem_singleton.mpr (hplain.distinctKeys hnamed)
  exact leftOut_of_parseInstance hnamed hplain hapart hfree
    (hoperated.change.consistent hstore)
    (hoperated.typed (hplain.namesApart hfree) hschemas
      (List.mem_singleton_self model) hdistinct htyped)
    hread hparse

end Model

/-!
## Reserved names

A model may have the name under which definitions are found.  Its documents are
then stored and never found, and the definitions that are found have no numbers.
-/

theorem documentNumber?_eq_none {id : String} {first : Char} {rest : List Char}
    (hid : id.toList = first :: rest) (hdigit : first.isDigit = false)
    (hsign : first ≠ '+') : documentNumber? id = none := by
  unfold documentNumber?
  rw [hid]
  split
  · next heq =>
      cases heq
      exact absurd rfl hsign
  · simp [hdigit]

theorem Reference.toList_reserved {name : String}
    (h : name ∈ Reference.reserved) :
    exists first rest, name.toList = first :: rest ∧ first.isDigit = false ∧
      first ≠ '+' := by
  rcases List.mem_cons.mp h with heq | hlast
  · rw [heq]
    exact ⟨'c', _, rfl, by decide, by decide⟩
  · rw [List.mem_singleton.mp hlast]
    exact ⟨'i', _, rfl, by decide, by decide⟩

namespace Store

variable {store left : Store} {clock : Clock} {model : Model}

structure NamedAfter (name : String) (store : Store) : Prop where
  collections : forall other, Keyed.contains store.collections other = true ->
    exists rest, other = name ++ rest
  indexes : forall other, Keyed.contains store.indexes other = true ->
    exists rest, other = name ++ rest

theorem contains_putDocument {collection : String} {number : Nat}
    {document : Document} {name : String}
    (h : Keyed.contains
      (store.putDocument collection number document).collections name = true) :
    Keyed.contains store.collections name = true := by
  unfold putDocument at h
  split at h
  · next stored hstored =>
      exact Keyed.contains_of_insert (Keyed.contains_iff.mpr ⟨stored, hstored⟩) h
  · exact h

theorem contains_dropDocument {collection : String} {number : Nat}
    {name : String}
    (h : Keyed.contains (store.dropDocument collection number).collections name =
      true) :
    Keyed.contains store.collections name = true := by
  unfold dropDocument at h
  split at h
  · next stored hstored =>
      exact Keyed.contains_of_insert (Keyed.contains_iff.mpr ⟨stored, hstored⟩) h
  · exact h

theorem contains_remove {reference : Reference} {name : String}
    (h : Keyed.contains (store.remove reference).collections name = true) :
    Keyed.contains store.collections name = true := by
  unfold remove at h
  split at h
  · exact Keyed.contains_of_erase h
  · split at h
    · exact h
    · cases hnumber : documentNumber? reference.id with
      | none =>
          rw [hnumber] at h
          exact h
      | some number =>
          rw [hnumber] at h
          exact contains_dropDocument h

theorem namedAfter_putDocument {name : String} (h : store.NamedAfter name)
    (last : Nat) (collection : String) (number : Nat) (document : Document) :
    ((store.stepped clock last).putDocument collection number document).NamedAfter
      name where
  collections other hother := by
    have hstepped : Keyed.contains (store.stepped clock last).collections other =
        true := contains_putDocument hother
    exact h.collections other hstepped
  indexes other hother := by
    rw [putDocument_indexes] at hother
    exact h.indexes other hother

theorem Operated.namedAfter {name : String} {operation : Operation}
    (hrun : store.Operated clock model operation left)
    (h : store.NamedAfter name) : left.NamedAfter name := by
  cases hrun with
  | unchanged =>
      exact h
  | created _ hcreate =>
      rw [(createDocument_ok hcreate).2.2]
      exact namedAfter_putDocument h _ _ _ _
  | updated _ hupdate =>
      rcases updateDocument_ok hupdate with ⟨_, _, _, _, _, hleft⟩
      rw [hleft]
      exact namedAfter_putDocument h _ _ _ _
  | deleted hdelete =>
      rw [(delete_ok hdelete).2]
      constructor
      · exact fun other hother => h.collections other (contains_remove hother)
      · intro other hother
        rcases Keyed.contains_iff.mp hother with ⟨stored, hstored⟩
        exact h.indexes other
          (Keyed.contains_iff.mpr ⟨stored, get?_indexes_of_remove hstored⟩)
  | linked _ hcreate =>
      rw [(createDocument_ok hcreate).2.2]
      exact namedAfter_putDocument h _ _ _ _

theorem find?_reserved {name : String} (hreserved : name ∈ Reference.reserved)
    {id : String} {document : Document}
    (h : store.find? { collection := name, id := id } = some document) :
    Keyed.contains store.collections id = true ∨
      Keyed.contains store.indexes id = true := by
  unfold find? at h
  split at h
  · rw [Option.map_eq_some_iff] at h
    rcases h with ⟨stored, hstored, _⟩
    exact Or.inl (Keyed.contains_iff.mpr ⟨stored, hstored⟩)
  · next hcollections =>
      rw [if_pos, Option.map_eq_some_iff] at h
      · rcases h with ⟨stored, hstored, _⟩
        exact Or.inr (Keyed.contains_iff.mpr ⟨stored, hstored⟩)
      · exact List.mem_singleton.mp
          ((List.mem_cons.mp hreserved).resolve_left hcollections)

/-- A definition that is found under a reserved name has an id that starts like the
name. -/
theorem NamedAfter.head_of_find? {name : String} (h : store.NamedAfter name)
    (hreserved : name ∈ Reference.reserved) {id : String} {document : Document}
    (hfound : store.find? { collection := name, id := id } = some document) :
    exists first rest, id.toList = first :: rest ∧ first.isDigit = false ∧
      first ≠ '+' := by
  have hid : exists rest, id = name ++ rest :=
    (find?_reserved hreserved hfound).elim (h.collections id) (h.indexes id)
  rcases hid with ⟨rest, heq⟩
  rcases Reference.toList_reserved hreserved with
    ⟨first, others, hname, hdigit, hsign⟩
  refine ⟨first, others ++ rest.toList, ?_, hdigit, hsign⟩
  rw [heq, String.toList_append, hname, List.cons_append]

theorem NamedAfter.find?_numbered {name : String} (h : store.NamedAfter name)
    (hreserved : name ∈ Reference.reserved) (number : Nat) :
    store.find? (numbered name number) = none := by
  cases hfound : store.find? (numbered name number) with
  | none =>
      rfl
  | some document =>
      rcases h.head_of_find? hreserved hfound with ⟨first, rest, hid, hdigit, _⟩
      rw [toList_toString] at hid
      have hmem : first ∈ Nat.toDigits 10 number := by
        rw [hid]
        exact List.mem_cons_self
      rw [Nat.isDigit_of_mem_toDigits (by decide) (by decide) hmem] at hdigit
      cases hdigit

theorem NamedAfter.documentNumber?_eq_none {name : String}
    (h : store.NamedAfter name) (hreserved : name ∈ Reference.reserved)
    {id : String} {document : Document}
    (hfound : store.find? { collection := name, id := id } = some document) :
    documentNumber? id = none := by
  rcases h.head_of_find? hreserved hfound with ⟨first, rest, hid, hdigit, hsign⟩
  exact DocumentMapper.documentNumber?_eq_none hid hdigit hsign

theorem namedAfter_of_deploy {deployed : Store} (hplain : model.Plain)
    (hdeploy : (Client.memory clock).deploy { models := [model] } empty =
      .ok () deployed) : deployed.NamedAfter model.name := by
  rcases Deployment.added_of_deploy Deployment.derived_of_mem_stored
    (Deployment.deploy_stored hdeploy) with ⟨between, hcollections, hindexes⟩
  constructor
  · intro other hother
    rw [hindexes.2.1] at hother
    by_contra hnone
    rw [Keyed.contains, hcollections.1.others other] at hother
    · cases hother
    · intro hmem
      rcases List.mem_map.mp hmem with ⟨definition, hdefinition, hname⟩
      rcases List.mem_flatMap.mp hdefinition with ⟨own, hown, hin⟩
      have hsame := List.mem_singleton.mp (Deployment.mem_stored_iff.mp hown).1
      rw [hsame, Model.collections, hplain.perField_collections] at hin
      rw [List.mem_singleton.mp hin] at hname
      exact hnone ⟨"", by simp [<- hname]⟩
  · intro other hother
    by_contra hnone
    have hbefore : between.indexes = [] := hcollections.2.1
    rw [Keyed.contains, hindexes.1.others other] at hother
    · rw [hbefore] at hother
      cases hother
    · intro hmem
      rcases List.mem_map.mp hmem with ⟨definition, hdefinition, hname⟩
      rcases List.mem_flatMap.mp hdefinition with ⟨own, hown, hin⟩
      have hsame := List.mem_singleton.mp (Deployment.mem_stored_iff.mp hown).1
      rw [hsame] at hin
      rcases List.mem_flatMap.mp hin with ⟨⟨name, field⟩, hfield, hindex⟩
      rcases hplain name field hfield with ⟨schema, options, hscalar, _⟩
      rw [hscalar] at hindex
      have hown : options.ownIndex? model.name name = some definition := by
        simpa [Field.indexes, Option.mem_toList] using hindex
      unfold FieldOptions.ownIndex? at hown
      split at hown
      · cases hown
        exact hnone ⟨"_by_" ++ name, by
          rw [<- hname, ownIndexName, String.append_assoc]⟩
      · cases hown

end Store

/-!
# Main statement
-/

theorem Manager.validation_leaves_store {model : Model}
    (hnamed : model.WellNamed) (hplain : model.Plain)
    (hapart : Reference.key ∈ Keyed.keys model.fields ->
      "collection" ∉ Keyed.keys model.fields)
    {clock : Clock} {deployed : Store}
    (hdeploy : (Client.memory clock).deploy { models := [model] } Store.empty =
      .ok () deployed)
    {calls : List Call}
    (hcalls : forall call, call ∈ calls ->
      call.model = model ∧ call.operation.DistinctKeys)
    (now : Clock) {data : Document}
    (hdata : (Value.document data).DistinctKeys) {issues : List Issue}
    {left : Store} :
    let manager := Manager.memory now model
    let store := deployed.afterCalls calls
    (manager.create data store = .error (.validation issues) left ->
      left = store ∨
        exists document,
          left.find? (Store.numbered model.name (store.lastNumber + 1)) =
            some document ∧
          model.LeftOut document) ∧
    (forall id,
      manager.update id data store = .error (.validation issues) left ->
      left = store ∨
        exists document,
          left.find? { collection := model.name, id := id } = some document ∧
          model.LeftOut document) := by
  intro manager store
  have hreach := Deployment.reachable_of_deploy hdeploy
  by_cases hfree : model.name ∈ Reference.reserved
  · have hrun : store.Consistent ∧ store.NamedAfter model.name :=
      Store.afterCalls_keeps
        (fun _ _ _ _ _ h hoperated => hoperated.namedAfter h)
        hreach.consistent (Store.namedAfter_of_deploy hplain hdeploy)
    constructor
    · intro herror
      rcases create_validation hrun.1 herror with
        hsame | ⟨parsed, document, raw, hparsed, hwritten, hread, _⟩
      · exact Or.inl hsame
      · have hoperated : store.Operated now model (.create data) left :=
          .created hparsed hwritten
        rcases hnamed.read_ok hread with ⟨reference, _, _, hreference, hfound, _⟩
        rw [Reference.ofValue?_toValue, Option.some.injEq] at hreference
        rw [<- hreference,
          (hoperated.namedAfter hrun.2).find?_numbered hfree] at hfound
        cases hfound
    · intro id herror
      rcases update_validation hrun.1 herror with
        hsame | ⟨parsed, document, raw, _, hwritten, _⟩
      · exact Or.inl hsame
      · rcases Store.updateDocument_ok hwritten with
          ⟨found, number, hfound, hnumber, _⟩
        rw [hrun.2.documentNumber?_eq_none hfree hfound] at hnumber
        cases hnumber
  · have hnames := hplain.namesApart hfree
    have hschemas : forall other, other ∈ [model] ->
        other.writeSchema.DistinctKeys :=
      List.forall_mem_singleton.mpr (hplain.distinctKeys hnamed)
    have hempty : deployed.Typed [model] :=
      Store.holds_of_deploy Deployment.derived_of_mem_stored
        (Deployment.deploy_stored hdeploy) _
    have hrun : store.Consistent ∧ store.Typed [model] :=
      Store.afterCalls_keeps
        (fun call hcall _ _ _ h hoperated =>
          hoperated.typed hnames hschemas
            (List.mem_singleton.mpr (hcalls call hcall).1)
            (hcalls call hcall).2 h)
        hreach.consistent hempty
    constructor
    · intro herror
      rcases create_validation hrun.1 herror with
        hsame | ⟨parsed, document, raw, hparsed, hwritten, hread, hparse⟩
      · exact Or.inl hsame
      · have hoperated : store.Operated now model (.create data) left :=
          .created hparsed hwritten
        exact Or.inr (Model.leftOut_of_operated hnamed hplain hapart hfree hrun.1
          hrun.2 hoperated hdata hread hparse)
    · intro id herror
      rcases update_validation hrun.1 herror with
        hsame | ⟨parsed, document, raw, hparsed, hwritten, hread, hparse⟩
      · exact Or.inl hsame
      · have hoperated : store.Operated now model (.update id data) left :=
          .updated hparsed hwritten
        exact Or.inr (Model.leftOut_of_operated hnamed hplain hapart hfree hrun.1
          hrun.2 hoperated hdata hread hparse)

/-!
The statement at one run: a memo is created, and an update that would make its text a
boolean is refused.
-/

def memoModel : Model :=
  { name := "Memo"
    fields := [("text", .scalar .string .string FieldOptions.plain)]
    derived := false }

def memoCalls : List Call :=
  [{ clock := fun _ => 0
     model := memoModel
     operation := .create [("text", .string "buy tea")] }]

theorem Manager.validation_leaves_store_memo :
    exists deployed left,
      (Client.memory fun _ => 0).deploy { models := [memoModel] } Store.empty =
        .ok () deployed ∧
      (Manager.memory (fun _ => 0) memoModel).update "1" [("text", .bool true)]
          (deployed.afterCalls memoCalls) =
        .error
          (.validation
            [{ path := ["text"], fault := Schema.string.mismatch (.bool true) }])
          left ∧
      (deployed.afterCalls memoCalls).documentsOf "Memo" ≠ [] ∧
      left = deployed.afterCalls memoCalls := by
  have hdeploy : (Client.memory fun _ => 0).deploy { models := [memoModel] }
      Store.empty =
        .ok () (Store.empty.after
          ((Client.memory fun _ => 0).deploy { models := [memoModel] })) := by
    rfl
  have hnamed : memoModel.WellNamed := by
    constructor <;> decide
  have hplain : memoModel.Plain := by
    intro name field hfield
    cases List.mem_singleton.mp hfield
    exact ⟨.string, FieldOptions.plain, rfl, trivial⟩
  have hcalls : forall call, call ∈ memoCalls ->
      call.model = memoModel ∧ call.operation.DistinctKeys := by
    simp [memoCalls, Operation.DistinctKeys, Value.DistinctKeys,
      Value.DistinctKeysInEntries, Keyed.keys]
  have hdata : (Value.document [("text", .bool true)]).DistinctKeys := by
    simp [Value.DistinctKeys, Value.DistinctKeysInEntries, Keyed.keys]
  refine ⟨_, _, hdeploy, rfl, by decide, ?_⟩
  have hleaves := (Manager.validation_leaves_store hnamed hplain (by decide)
    hdeploy hcalls (fun _ => 0) hdata).2 "1" rfl
  cases hleaves with
  | inl hsame =>
      exact hsame
  | inr hleft =>
      rcases hleft with ⟨_, _, name, schema, options, hfield, homittable, _⟩
      cases List.mem_singleton.mp hfield
      cases homittable

/-!
The exception: a note whose text may be missing is created without one, and the
creation is refused after the note has been stored.
-/

def noteModel : Model :=
  { name := "Note"
    fields :=
      [("text",
        .scalar (.omittable .string) (.omittable .string) FieldOptions.plain)]
    derived := false }

theorem Manager.create_note_stores_and_refuses :
    exists deployed left,
      (Client.memory fun _ => 0).deploy { models := [noteModel] } Store.empty =
        .ok () deployed ∧
      (Manager.memory (fun _ => 0) noteModel).create [] deployed =
        .error (.validation [{ path := ["text"], fault := .required }]) left ∧
      deployed.documentsOf "Note" = [] ∧
      left.documentsOf "Note" =
        [(1,
          [("ref", (Store.numbered "Note" 1).toValue), ("ts", .int .long 2),
            ("data", .document [])])] := by
  refine ⟨_, _, rfl, rfl, rfl, rfl⟩

end DocumentMapper
