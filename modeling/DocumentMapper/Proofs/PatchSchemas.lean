import DocumentMapper.Proofs.Conformance

/-!
# Schemas of patches

The schema of a patch checks a key where it is there, by the key's own schema, and what
parsing leaves of a patch has no key that the patch lacks.  So an update leaves alone what
it does not mention.

What is a whole object is also a patch.  Parsing it as either leaves the same, but for keys
that are only written: they are dropped from an object, and a patch holds a null for them.
-/

namespace DocumentMapper
namespace Schema

variable {fields : List (String × Schema)} {entries : Document}

/-!
## Keys that may be missing
-/

@[simp] theorem isOmittable_orMissing (schema : Schema) :
    schema.orMissing.isOmittable = true := by
  unfold orMissing
  split
  · assumption
  · rfl

@[simp] theorem isHidden_orMissing (schema : Schema) :
    schema.orMissing.isHidden = false := by
  cases schema <;> rfl

theorem conforms_orMissing {schema : Schema} {value : Value} :
    schema.orMissing.Conforms value <-> schema.Conforms value := by
  unfold orMissing
  split <;> exact Iff.rfl

theorem shape_orMissing (schema : Schema) (value : Value) :
    schema.orMissing.shape value = schema.shape value := by
  unfold orMissing
  split <;> rfl

theorem conformsAtKey_orMissing {schema : Schema} {found : Option Value} :
    schema.orMissing.ConformsAtKey found <->
      forall value, found = some value -> schema.Conforms value := by
  cases found <;> simp [ConformsAtKey, conforms_orMissing]

theorem shapeAt_orMissing (schema : Schema) (found : Option Value) :
    schema.orMissing.shapeAt found = found.map schema.shape := by
  cases found <;> simp [shapeAt, shape_orMissing]

theorem shapeAt_eq (schema : Schema) (found : Option Value) :
    schema.shapeAt found = if schema.isHidden then none else found.map schema.shape := by
  cases found <;> simp [shapeAt]

/-!
## Patches key by key
-/

theorem conforms_relaxed :
    (object fields).relaxed.Conforms (.document entries) <->
      forall field, field ∈ fields ->
        forall value, Keyed.get? entries field.1 = some value ->
          field.2.Conforms value := by
  rw [relaxed, conforms_object, List.forall_mem_map]
  exact forall₂_congr fun field _ => conformsAtKey_orMissing

def patchOf (fields : List (String × Schema)) (entries : Document) : Document :=
  pick fields fun field => (Keyed.get? entries field.1).map field.2.shape

theorem shape_relaxed (h : (Keyed.keys fields).Nodup) (entries : Document) :
    (object fields).relaxed.shape (.document entries) =
      .document (patchOf fields entries) := by
  have hrelaxed : (Keyed.keys
      (fields.map fun field => (field.1, field.2.orMissing))).Nodup := by
    rwa [keys_relaxed]
  rw [relaxed, shape, shapeFields_eq_pick hrelaxed, pick, List.filterMap_map]
  simp [patchOf, pick, Function.comp_def, shapeAt_orMissing]

theorem parse_relaxed_iff (h : (Keyed.keys fields).Nodup) {parsed : Value} :
    (object fields).relaxed.parse (.document entries) = .ok parsed <->
      (object fields).relaxed.Conforms (.document entries) ∧
        .document (patchOf fields entries) = parsed := by
  rw [parse_eq_ok_iff_conforms, shape_relaxed h]

theorem keys_patchOf (fields : List (String × Schema)) (entries : Document) :
    Keyed.keys (patchOf fields entries) =
      Keyed.keys (fields.filter fun field => Keyed.contains entries field.1) := by
  rw [patchOf, keys_pick]
  simp [Keyed.contains]

theorem nodup_keys_patchOf (h : (Keyed.keys fields).Nodup) (entries : Document) :
    (Keyed.keys (patchOf fields entries)).Nodup := by
  rw [keys_patchOf]
  exact h.sublist (List.filter_sublist.map Prod.fst)

theorem mem_keys_patchOf {key : String} :
    key ∈ Keyed.keys (patchOf fields entries) <->
      key ∈ Keyed.keys fields ∧ key ∈ Keyed.keys entries := by
  rw [keys_patchOf]
  constructor
  · intro hkey
    rcases List.mem_map.mp hkey with ⟨field, hfield, rfl⟩
    rcases List.mem_filter.mp hfield with ⟨hdeclared, hcontains⟩
    rcases Keyed.contains_iff.mp hcontains with ⟨value, hvalue⟩
    exact ⟨List.mem_map_of_mem hdeclared, Keyed.mem_keys_of_mem (Keyed.mem_of_get? hvalue)⟩
  · rintro ⟨hdeclared, hthere⟩
    rcases List.mem_map.mp hdeclared with ⟨field, hfield, rfl⟩
    exact List.mem_map_of_mem
      (List.mem_filter.mpr ⟨hfield, Keyed.contains_of_mem_keys hthere⟩)

theorem get?_merge_patchOf (h : (Keyed.keys fields).Nodup) (data : Document)
    {key : String} (hkey : key ∉ Keyed.keys entries) :
    Keyed.get? (Document.merge data (patchOf fields entries)) key =
      Keyed.get? data key := by
  have habsent : Keyed.get? (patchOf fields entries) key = none :=
    Keyed.get?_eq_none_iff.mpr fun hmem => hkey (mem_keys_patchOf.mp hmem).2
  rw [Document.get?_merge (nodup_keys_patchOf h entries), habsent]
  rfl

/-!
## Objects as patches
-/

def writesOnly (fields : List (String × Schema)) (key : String) : Bool :=
  (Keyed.get? fields key).any isHidden

theorem writesOnly_iff {key : String} :
    writesOnly fields key = true <-> Keyed.get? fields key = some hidden := by
  rw [writesOnly]
  rcases Keyed.get? fields key with _ | schema
  · simp
  · cases schema <;> simp [isHidden]

theorem writesOnly_of_mem (h : (Keyed.keys fields).Nodup) {field : String × Schema}
    (hfield : field ∈ fields) : writesOnly fields field.1 = field.2.isHidden := by
  rw [writesOnly, Keyed.get?_of_mem h hfield, Option.any_some]

theorem filter_pick (keeps : String -> Bool) (fields : List (String × Schema))
    (found : String × Schema -> Option Value) :
    (pick fields found).filter (fun entry => keeps entry.1) =
      pick fields fun field => if keeps field.1 then found field else none := by
  rw [pick, List.filter_filterMap, pick]
  congr 1
  funext field
  cases found field with
  | none => cases keeps field.1 <;> rfl
  | some value => cases hkeeps : keeps field.1 <;> simp [Option.filter, hkeeps]

theorem shapeFields_eq_filter (h : (Keyed.keys fields).Nodup) (entries : Document) :
    shapeFields fields entries [] =
      (patchOf fields entries).filter fun entry => !writesOnly fields entry.1 := by
  rw [shapeFields_eq_pick h, patchOf, filter_pick fun key => !writesOnly fields key]
  apply pick_congr
  intro field hfield
  rw [shapeAt_eq, writesOnly_of_mem h hfield]
  cases field.2.isHidden <;> rfl

theorem get?_patchOf_of_writesOnly (h : (Keyed.keys fields).Nodup) (entries : Document)
    {key : String} (hkey : writesOnly fields key = true) :
    Keyed.get? (patchOf fields entries) key =
      (Keyed.get? entries key).map fun _ => .null := by
  have hhidden := Keyed.mem_of_get? (writesOnly_iff.mp hkey)
  cases hvalue : Keyed.get? entries key with
  | none =>
      apply Keyed.get?_eq_none_iff.mpr
      exact fun hmem => Keyed.get?_eq_none_iff.mp hvalue (mem_keys_patchOf.mp hmem).2
  | some value =>
      apply Keyed.get?_of_mem (nodup_keys_patchOf h entries)
      apply List.mem_filterMap.mpr
      exact ⟨(key, hidden), hhidden, by simp [hvalue, shape]⟩

/-- The two are the same exactly where the object has no key that is only written. -/
theorem shapeFields_eq_patchOf_iff (h : (Keyed.keys fields).Nodup) :
    shapeFields fields entries [] = patchOf fields entries <->
      forall key, writesOnly fields key = true -> key ∉ Keyed.keys entries := by
  rw [shapeFields_eq_filter h, List.filter_eq_self]
  constructor
  · intro hkept key hkey hmem
    have hdeclared := Keyed.mem_keys_of_mem (Keyed.mem_of_get? (writesOnly_iff.mp hkey))
    have hleft : key ∈ Keyed.keys (patchOf fields entries) :=
      mem_keys_patchOf.mpr ⟨hdeclared, hmem⟩
    rcases List.mem_map.mp hleft with ⟨entry, hentry, rfl⟩
    simpa [hkey] using hkept entry hentry
  · intro hnone entry hentry
    have hmem := (mem_keys_patchOf.mp (List.mem_map_of_mem hentry)).2
    simpa using fun hkey => hnone entry.1 hkey hmem

/-!
# Main statement
-/

theorem patches_are_checked_key_by_key (h : (Keyed.keys fields).Nodup)
    (entries : Document) :
    ((object fields).relaxed.accepts (.document entries) = true <->
      forall field, field ∈ fields ->
        forall value, Keyed.get? entries field.1 = some value ->
          field.2.accepts value = true) ∧
    (forall parsed, (object fields).parse (.document entries) = .ok parsed ->
      exists whole left, parsed = .document whole ∧
        (object fields).relaxed.parse (.document entries) = .ok (.document left) ∧
        whole = left.filter (fun entry => !writesOnly fields entry.1) ∧
        (forall key, writesOnly fields key = true ->
          Keyed.get? left key = (Keyed.get? entries key).map fun _ => .null) ∧
        (whole = left <->
          forall key, writesOnly fields key = true -> key ∉ Keyed.keys entries)) ∧
    forall parsed, (object fields).relaxed.parse (.document entries) = .ok parsed ->
      exists left, parsed = .document left ∧
        (forall key, key ∈ Keyed.keys left <->
          key ∈ Keyed.keys fields ∧ key ∈ Keyed.keys entries) ∧
        forall data key, key ∉ Keyed.keys entries ->
          Keyed.get? (Document.merge data left) key = Keyed.get? data key := by
  have haccepts : forall {schema : Schema} {value : Value},
      schema.accepts value = true <-> schema.Conforms value := by
    intro schema value
    rw [accepts_iff, issues, issuesAt_eq_nil_iff_conforms]
  refine ⟨?_, ?_, ?_⟩
  · simp only [haccepts]
    exact conforms_relaxed
  · intro parsed hparsed
    rcases parse_eq_ok_iff_conforms.mp hparsed with ⟨hconforms, hshape⟩
    -- Every key of the object is checked, so those that are there are.
    have hpatch : (object fields).relaxed.Conforms (.document entries) := by
      rw [conforms_relaxed]
      intro field hfield value hvalue
      have hat := conforms_object.mp hconforms field hfield
      rwa [hvalue] at hat
    exact ⟨_, _, hshape.symm, (parse_relaxed_iff h).mpr ⟨hpatch, rfl⟩,
      shapeFields_eq_filter h entries,
      fun key => get?_patchOf_of_writesOnly h entries,
      shapeFields_eq_patchOf_iff h⟩
  · intro parsed hparsed
    rcases (parse_relaxed_iff h).mp hparsed with ⟨_, rfl⟩
    exact ⟨_, rfl, fun _ => mem_keys_patchOf, fun data _ => get?_merge_patchOf h data⟩

/-!
The statement at one schema: a patch may lack the name, which the account must have, and an
account that is parsed as a patch holds a null for its pin.
-/

def accountFields : List (String × Schema) :=
  [("name", .string), ("mail", .optional .string), ("pin", .hidden)]

def accountData : Document :=
  [("pin", .string "1234"), ("color", .string "red"), ("name", .string "Ann")]

def accountPatch : Document :=
  [("mail", .null)]

theorem patches_are_checked_key_by_key_account :
    (Keyed.keys accountFields).Nodup ∧
      (object accountFields).accepts (.document accountPatch) = false ∧
      (object accountFields).relaxed.accepts (.document accountPatch) = true ∧
      (exists whole left,
        (object accountFields).parse (.document accountData) =
            .ok (.document [("name", .string "Ann")]) ∧
          .document [("name", .string "Ann")] = Value.document whole ∧
          (object accountFields).relaxed.parse (.document accountData) =
            .ok (.document left) ∧
          whole = left.filter (fun entry => !writesOnly accountFields entry.1) ∧
          Keyed.get? left "pin" = some .null) ∧
      exists left,
        (object accountFields).relaxed.parse (.document accountPatch) =
            .ok (.document left) ∧
          "name" ∉ Keyed.keys left ∧
          Keyed.get? (Document.merge [("name", .string "Bo")] left) "name" =
            some (.string "Bo") := by
  have hkeys : (Keyed.keys accountFields).Nodup := by
    decide
  have hwhole : (object accountFields).parse (.document accountData) =
      .ok (.document [("name", .string "Ann")]) := by
    rfl
  have hpatch : (object accountFields).relaxed.parse (.document accountPatch) =
      .ok (.document accountPatch) := by
    rfl
  have hmail : forall field, field ∈ accountFields ->
      forall value, Keyed.get? accountPatch field.1 = some value ->
        field.2.accepts value = true := by
    simp [accountFields, accountPatch, Keyed.get?, accepts, issues, issuesAt, Value.isNull]
  rcases patches_are_checked_key_by_key hkeys accountData with ⟨_, hobject, _⟩
  rcases patches_are_checked_key_by_key hkeys accountPatch with ⟨hiff, _, hleft⟩
  rcases hobject _ hwhole with ⟨whole, left, hsame, hparsed, hfilter, hpin, _⟩
  rcases hleft _ hpatch with ⟨patch, hsame', hdeclared, hmerge⟩
  have hname : "name" ∉ Keyed.keys accountPatch := by
    decide
  refine ⟨hkeys, rfl, hiff.mpr hmail, ⟨whole, left, hwhole, hsame, hparsed, hfilter, ?_⟩,
    patch, hsame' ▸ hpatch, fun hmem => hname ((hdeclared _).mp hmem).2, ?_⟩
  · exact hpin "pin" rfl
  · exact hmerge _ _ hname

/-!
The exception: the patch is not what is left of the account.
-/

theorem account_as_patch_holds_pin :
    (object accountFields).DistinctKeys ∧
      (object accountFields).parse (.document accountData) =
        .ok (.document [("name", .string "Ann")]) ∧
      (object accountFields).relaxed.parse (.document accountData) =
        .ok (.document [("name", .string "Ann"), ("pin", .null)]) ∧
      (object accountFields).relaxed.parse (.document accountData) ≠
        .ok (.document [("name", .string "Ann")]) := by
  refine ⟨?_, rfl, rfl, ?_⟩
  · simp [accountFields, DistinctKeys, DistinctKeysInFields, Keyed.keys]
  · intro hsame
    have hleft : (object accountFields).relaxed.parse (.document accountData) =
        .ok (.document [("name", .string "Ann"), ("pin", .null)]) := rfl
    rw [hleft] at hsame
    simp at hsame

end Schema
end DocumentMapper
