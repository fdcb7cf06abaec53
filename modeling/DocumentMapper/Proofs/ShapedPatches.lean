import DocumentMapper.Proofs.Patches
import DocumentMapper.Proofs.Shapes

/-!
# Patches of a shape

A patch is checked on its own and then merged into data that is not checked again.
What is left has the shape of the schema all the same: where the patch says nothing
the old data counts, and where it says something the new value alone decides, or
two values of one shape are merged.

Dropping nulls is the case of a merge into nothing.
-/

namespace DocumentMapper
namespace Document

theorem exists_mergeValue_document {old : Option Value} {nested : Document}
    (hold : (Keyed.keys (existing old)).Nodup)
    (hnested : (Keyed.keys nested).Nodup) :
    exists left, mergeValue old (.document nested) = some (.document left) ∧
      (Keyed.keys left).Nodup ∧
      forall key, Keyed.get? left key =
        mergedAt (Keyed.get? (existing old) key) (Keyed.get? nested key) :=
  ⟨_, mergeValue_document hnested old, nodup_keys_merge hold nested, get?_merge hnested _⟩

end Document

namespace Schema

open Document

/-!
## Old values

An old value has the shape of its schema or is no value at all.
-/

/-- What was there before has the shape of the schema, or nothing was. -/
def ShapedBefore (schema : Schema) (old : Option Value) : Prop :=
  forall value, old = some value -> value = .null ∨ schema.Shaped value

def ShapedAfter (schema : Schema) (left : Option Value) : Prop :=
  schema.Shaped (left.getD .null)

theorem ShapedBefore.existing {schema : Schema} {old : Option Value}
    (h : schema.ShapedBefore old) :
    existing old = [] ∨
      exists entries, Document.existing old = entries ∧
        schema.Shaped (.document entries) := by
  cases old with
  | none =>
      exact Or.inl rfl
  | some value =>
      cases value with
      | document entries =>
          cases h (.document entries) rfl with
          | inl hnull => cases hnull
          | inr hshaped => exact Or.inr ⟨entries, rfl, hshaped⟩
      | _ =>
          exact Or.inl rfl

theorem ShapedBefore.object_existing {fields : List (String × Schema)}
    {old : Option Value} (h : (object fields).ShapedBefore old) :
    (Keyed.keys (Document.existing old)).Nodup ∧
      (forall key, key ∈ Keyed.keys (Document.existing old) ->
        key ∈ Keyed.keys fields) ∧
      forall field, field ∈ fields ->
        forall found,
          Keyed.get? (Document.existing old) field.1 = some found ->
          field.2.ShapedAt (some found) := by
  rcases h.existing with hnil | ⟨entries, hentries, hshaped⟩
  · rw [hnil]
    refine ⟨List.nodup_nil, ?_, ?_⟩
    · intro key hkey
      cases hkey
    · intro field _ found hfound
      cases hfound
  · rcases hshaped with ⟨_, hsame, hkeys, hknown, hat⟩
    cases hsame
    rw [hentries]
    refine ⟨hkeys, hknown, ?_⟩
    intro field hmem found hfound
    have hown := shapedFields_iff.mp hat field hmem
    rwa [hfound] at hown

theorem ShapedBefore.reference_existing {collection : String}
    {old : Option Value} (h : (reference collection).ShapedBefore old) :
    (Keyed.keys (Document.existing old)).Nodup ∧
      (Keyed.keys (Document.existing
        (Keyed.get? (Document.existing old) Reference.key))).Nodup := by
  rcases h.existing with hnil | ⟨held, hheld, hshaped⟩
  · rw [hnil]
    exact ⟨List.nodup_nil, List.nodup_nil⟩
  · rcases hshaped with ⟨_, inside, _, hsame, hkeys, hinside, hnodup, _⟩
    cases hsame
    rw [hheld, hinside]
    exact ⟨hkeys, hnodup⟩

/-!
## Keys of a merge
-/

theorem shapedAt_merged {schema : Schema}
    (hmerge : forall {old : Option Value} {value : Value},
      schema.ShapedBefore old -> schema.Shaped value ->
        schema.ShapedAfter (mergeValue old value))
    {old new : Option Value}
    (hold : forall value, old = some value -> schema.ShapedAt (some value))
    (hnew : forall value, new = some value -> schema.Shaped value)
    (hmissing : new = none -> schema.ShapedAt old) :
    schema.ShapedAt (mergedAt old new) := by
  cases new with
  | none =>
      exact hmissing rfl
  | some value =>
      have hvalue := hnew value rfl
      have hbefore : schema.ShapedBefore old := fun before hbefore =>
        Or.inr (hold before hbefore).2
      have hafter := hmerge hbefore hvalue
      show schema.ShapedAt (mergeValue old value)
      cases hleft : mergeValue old value with
      | none =>
          rw [hleft] at hafter
          exact Or.inr hafter
      | some left =>
          rw [hleft] at hafter
          refine ⟨?_, hafter⟩
          cases schema with
          | hidden =>
              have hnull : value = .null := hvalue
              rw [hnull] at hleft
              cases hleft
          | _ =>
              rfl

theorem shaped_object_merged {fields : List (String × Schema)}
    {old new left : Document} (hnodup : (Keyed.keys left).Nodup)
    (hget : forall key, Keyed.get? left key =
      mergedAt (Keyed.get? old key) (Keyed.get? new key))
    (hold : forall key, key ∈ Keyed.keys old -> key ∈ Keyed.keys fields)
    (hnew : forall key, key ∈ Keyed.keys new -> key ∈ Keyed.keys fields)
    (hfields : forall field, field ∈ fields ->
      field.2.ShapedAt
        (mergedAt (Keyed.get? old field.1) (Keyed.get? new field.1))) :
    (object fields).Shaped (.document left) := by
  refine ⟨left, rfl, hnodup, ?_, ?_⟩
  · intro key hkey
    by_cases hmentioned : key ∈ Keyed.keys new
    · exact hnew key hmentioned
    · apply hold
      apply Decidable.byContradiction
      intro hunknown
      apply Keyed.get?_eq_none_iff.mp ?_ hkey
      rw [hget, Keyed.get?_eq_none_iff.mpr hmentioned]
      exact Keyed.get?_eq_none_iff.mpr hunknown
  · apply shapedFields_iff.mpr
    intro field hmem
    rw [hget]
    exact hfields field hmem

/-!
## Merged values
-/

theorem shapedAfter_mergeValue {schema : Schema} {old : Option Value}
    {value : Value} (hold : schema.ShapedBefore old) (h : schema.Shaped value) :
    schema.ShapedAfter (mergeValue old value) := by
  induction schema generalizing old value with
  | any =>
      trivial
  | string =>
      rcases h with ⟨s, hvalue⟩
      rw [hvalue]
      exact ⟨s, rfl⟩
  | number =>
      cases value with
      | int width n => rfl
      | double x => rfl
      | _ => cases h
  | boolean =>
      rcases h with ⟨b, hvalue⟩
      rw [hvalue]
      exact ⟨b, rfl⟩
  | oneOf options =>
      rcases h with ⟨s, hs, hvalue⟩
      rw [hvalue]
      exact ⟨s, hs, rfl⟩
  | object fields ih =>
      rcases h with ⟨nested, hvalue, hnested, hdeclared, hfields⟩
      rw [hvalue]
      rcases hold.object_existing with ⟨hkeys, hknown, hat⟩
      rcases exists_mergeValue_document hkeys hnested with ⟨left, hleft, hnodup, hget⟩
      rw [hleft]
      apply shaped_object_merged hnodup hget hknown hdeclared
      intro field hmem
      have hown := shapedFields_iff.mp hfields field hmem
      apply shapedAt_merged (ih field hmem) (hat field hmem)
      · intro found hfound
        rw [hfound] at hown
        exact hown.2
      · -- A key that the new value lacks may be missing, so an old one is needed
        -- only for its shape.
        intro hmissing
        cases hfound : Keyed.get? (existing old) field.1 with
        | none =>
            rwa [hmissing] at hown
        | some found =>
            exact hat field hmem found hfound
  | array item _ =>
      rcases h with ⟨items, hvalue, hitems⟩
      rw [hvalue]
      exact ⟨items, rfl, hitems⟩
  | optional inner ih =>
      cases h with
      | inl hnull =>
          rw [hnull]
          exact Or.inl rfl
      | inr hinner =>
          have hbefore : inner.ShapedBefore old := by
            intro before hbefore
            cases hold before hbefore with
            | inl hnull => exact Or.inl hnull
            | inr hshaped => exact hshaped
          exact Or.inr (ih hbefore hinner)
  | omittable inner ih =>
      exact ih hold h
  | never =>
      have hnull : value = .null := h
      rw [hnull]
      rfl
  | hidden =>
      have hnull : value = .null := h
      rw [hnull]
      rfl
  | reference collection =>
      rcases h with ⟨entries, target, id, hvalue, hentries, hkey, htarget,
        hcollection, hid⟩
      rw [hvalue]
      have hbefore := hold.reference_existing
      rcases exists_mergeValue_document hbefore.1 hentries with
        ⟨left, hleft, hnodup, hget⟩
      rcases exists_mergeValue_document hbefore.2 htarget with
        ⟨inside, hinside, hnodupInside, hgetInside⟩
      rw [hleft]
      refine ⟨left, inside, id, rfl, hnodup, ?_, hnodupInside, ?_, ?_⟩
      · rw [hget, hkey]
        exact hinside
      · rw [hgetInside, hcollection]
        rfl
      · rw [hgetInside, hid]
        rfl

/-!
## Stored data

What a creation stores and what an update leaves.
-/

theorem shaped_withoutNulls {fields : List (String × Schema)} {data : Document}
    (h : (object fields).Shaped (.document data)) :
    (object fields).Shaped (.document (withoutNulls data)) := by
  have hbefore : (object fields).ShapedBefore none := by
    intro value hvalue
    cases hvalue
  exact shapedAfter_mergeValue hbefore h

theorem keys_relaxed (fields : List (String × Schema)) :
    Keyed.keys (fields.map fun field => (field.1, field.2.orMissing)) =
      Keyed.keys fields := by
  simp [Keyed.keys]

theorem distinctKeys_orMissing {schema : Schema} (h : schema.DistinctKeys) :
    schema.orMissing.DistinctKeys := by
  unfold orMissing
  split <;> exact h

theorem distinctKeys_relaxed {fields : List (String × Schema)}
    (h : (object fields).DistinctKeys) : (object fields).relaxed.DistinctKeys := by
  constructor
  · rw [keys_relaxed]
    exact h.1
  · apply distinctKeysInFields_iff.mpr
    intro field hmem
    rcases List.mem_map.mp hmem with ⟨own, hown, hfield⟩
    rw [<- hfield]
    exact distinctKeys_orMissing (distinctKeysInFields_iff.mp h.2 own hown)

theorem shaped_orMissing {schema : Schema} {value : Value} :
    schema.orMissing.Shaped value <-> schema.Shaped value := by
  unfold orMissing
  split <;> exact Iff.rfl

/-- The patch may lack keys that the data must have, and the data has them. -/
theorem shaped_merge {fields : List (String × Schema)} {data patch : Document}
    (hdata : (object fields).Shaped (.document data))
    (hpatch : (object fields).relaxed.Shaped (.document patch)) :
    (object fields).Shaped (.document (merge data patch)) := by
  rcases hdata with ⟨_, hsame, hkeys, hknown, hfields⟩
  cases hsame
  rcases hpatch with ⟨_, hsame, hnodup, hdeclared, hchanges⟩
  cases hsame
  rw [keys_relaxed] at hdeclared
  apply shaped_object_merged (nodup_keys_merge hkeys patch)
    (get?_merge hnodup data) hknown hdeclared
  intro field hmem
  have hown := shapedFields_iff.mp hfields field hmem
  have hchange := shapedFields_iff.mp hchanges (field.1, field.2.orMissing)
    (List.mem_map_of_mem hmem)
  apply shapedAt_merged (fun hold hnew => shapedAfter_mergeValue hold hnew)
  · intro found hfound
    rwa [hfound] at hown
  · intro found hfound
    rw [hfound] at hchange
    exact shaped_orMissing.mp hchange.2
  · intro _
    exact hown

end Schema
end DocumentMapper
