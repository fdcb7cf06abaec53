import DocumentMapper.Proofs.ShapedPatches

/-!
# Settled values

Parsing a second time changes nothing, not even the order of keys, as a parsed
document has its keys in the order of the schema's fields.

Dropping nulls from a parsed value leaves one that parsing does not change either.
So what is stored of a parsed value is read back as it was stored.
-/

namespace DocumentMapper
namespace Schema

open Document

/-!
## Documents in the order of the fields
-/

def pick (fields : List (String × Schema))
    (found : String × Schema -> Option Value) : Document :=
  fields.filterMap fun field => (found field).map fun value => (field.1, value)

theorem pick_congr {fields : List (String × Schema)}
    {found other : String × Schema -> Option Value}
    (h : forall field, field ∈ fields -> found field = other field) :
    pick fields found = pick fields other :=
  List.filterMap_congr fun field hfield => by rw [h field hfield]

theorem keys_pick (fields : List (String × Schema))
    (found : String × Schema -> Option Value) :
    Keyed.keys (pick fields found) =
      Keyed.keys (fields.filter fun field => (found field).isSome) := by
  induction fields with
  | nil =>
      rfl
  | cons field rest ih =>
      unfold pick at ih ⊢
      cases hfound : found field with
      | none =>
          rw [List.filterMap_cons_none (by simp [hfound]), ih,
            List.filter_cons_of_neg (by simp [hfound])]
      | some value =>
          rw [List.filterMap_cons_some (b := (field.1, value)) (by simp [hfound]),
            List.filter_cons_of_pos (by simp [hfound])]
          exact congrArg (field.1 :: ·) ih

theorem shapeFields_eq_append {fields : List (String × Schema)}
    (h : (Keyed.keys fields).Nodup) (entries : Document) {shaped : Document}
    (hfresh : forall key, key ∈ Keyed.keys fields ->
      key ∉ Keyed.keys shaped) :
    shapeFields fields entries shaped =
      shaped ++
        pick fields fun field => field.2.shapeAt (Keyed.get? entries field.1) := by
  induction fields generalizing shaped with
  | nil =>
      simp [shapeFields, pick]
  | cons field rest ih =>
      rcases field with ⟨key, schema⟩
      have hcons : key ∉ Keyed.keys rest ∧ (Keyed.keys rest).Nodup :=
        List.nodup_cons.mp h
      have hown : key ∉ Keyed.keys shaped := hfresh key List.mem_cons_self
      have hothers : forall other, other ∈ Keyed.keys rest ->
          other ∉ Keyed.keys shaped := fun other hother =>
        hfresh other (List.mem_cons_of_mem _ hother)
      rw [shapeFields_cons]
      cases hshaped : schema.shapeAt (Keyed.get? entries key) with
      | none =>
          show shapeFields rest entries shaped = _
          rw [ih hcons.2 hothers, pick, pick,
            List.filterMap_cons_none (by simp [hshaped])]
      | some value =>
          show shapeFields rest entries (Keyed.insert shaped key value) = _
          have hnext : forall other, other ∈ Keyed.keys rest ->
              other ∉ Keyed.keys (Keyed.insert shaped key value) := by
            intro other hother hmem
            cases Keyed.mem_keys_insert.mp hmem with
            | inl heq => exact hcons.1 (heq ▸ hother)
            | inr hin => exact hothers other hother hin
          rw [ih hcons.2 hnext, Keyed.insert_of_fresh hown, pick, pick,
            List.filterMap_cons_some (b := (key, value)) (by simp [hshaped]),
            List.append_assoc]
          rfl

theorem shapeFields_eq_pick {fields : List (String × Schema)}
    (h : (Keyed.keys fields).Nodup) (entries : Document) :
    shapeFields fields entries [] =
      pick fields fun field => field.2.shapeAt (Keyed.get? entries field.1) :=
  shapeFields_eq_append h entries fun _ _ hmem => by cases hmem

theorem withoutNulls_pick (fields : List (String × Schema))
    (found : String × Schema -> Option Value) :
    withoutNulls (pick fields found) =
      pick fields fun field => (found field).bind kept := by
  induction fields with
  | nil =>
      rfl
  | cons field rest ih =>
      unfold pick at ih ⊢
      cases hfound : found field with
      | none =>
          rw [List.filterMap_cons_none (by simp [hfound]),
            List.filterMap_cons_none (by simp [hfound])]
          exact ih
      | some value =>
          rw [List.filterMap_cons_some (b := (field.1, value))
            (by simp [hfound]), withoutNulls]
          cases hkept : kept value with
          | none =>
              rw [List.filterMap_cons_none (by simp [hfound, hkept])]
              exact ih
          | some left =>
              rw [List.filterMap_cons_some (b := (field.1, left))
                (by simp [hfound, hkept])]
              exact congrArg _ ih

/-!
## Parsing twice
-/

theorem shapeAt_shapeAt {schema : Schema}
    (h : forall value, schema.shape (schema.shape value) = schema.shape value)
    (found : Option Value) :
    schema.shapeAt (schema.shapeAt found) = schema.shapeAt found := by
  cases found with
  | none =>
      rfl
  | some value =>
      cases hhidden : schema.isHidden with
      | true =>
          simp [shapeAt, hhidden]
      | false =>
          simp [shapeAt, hhidden, h]

theorem shapeReference_shapeReference {collection : String} {value left : Value}
    (h : shapeReference collection value = some left) :
    shapeReference collection left = some left := by
  cases value with
  | string id =>
      cases h
      simp [shapeReference, Reference.toValue, Reference.ofValue?,
        Value.document?, Keyed.get?, Reference.key, Value.string?]
  | document entries =>
      have hsame := h
      simp only [shapeReference] at hsame
      split at hsame
      · split at hsame
        · cases hsame
          exact h
        · cases hsame
      · cases hsame
  | _ =>
      cases h

theorem shape_shape {schema : Schema} (hschema : schema.DistinctKeys)
    (value : Value) : schema.shape (schema.shape value) = schema.shape value := by
  induction schema generalizing value with
  | object fields ih =>
      cases value with
      | document entries =>
          rw [shape, shape]
          congr 1
          rw [shapeFields_eq_pick hschema.1, shapeFields_eq_pick hschema.1]
          apply pick_congr
          intro field hfield
          rw [<- shapeFields_eq_pick hschema.1, get?_shapeFields_nil hschema.1,
            Keyed.get?_of_mem hschema.1 hfield, Option.bind_some]
          exact shapeAt_shapeAt
            (ih field hfield (distinctKeysInFields_iff.mp hschema.2 field hfield))
            _
      | _ =>
          rfl
  | array item ih =>
      cases value with
      | array items =>
          rw [shape, shape]
          congr 1
          rw [List.map_map]
          exact List.map_congr_left fun element _ => ih hschema element
      | _ =>
          rfl
  | optional inner ih =>
      exact ih hschema value
  | omittable inner ih =>
      exact ih hschema value
  | reference collection =>
      rw [shape, shape]
      cases hleft : shapeReference collection value with
      | none =>
          exact congrArg (fun left => left.getD Value.null)
            (show shapeReference collection .null = none from rfl)
      | some left =>
          rw [Option.getD_some, shapeReference_shapeReference hleft,
            Option.getD_some]
  | _ =>
      rfl

/-!
## Dropping nulls from what was parsed
-/

/-- A document that parsing does not change holds under each key what parsing leaves
there. -/
theorem shapeAt_of_shape_eq {fields : List (String × Schema)}
    {entries : Document} (hnodup : (Keyed.keys fields).Nodup)
    (h : shapeFields fields entries [] = entries) {field : String × Schema}
    (hfield : field ∈ fields) :
    field.2.shapeAt (Keyed.get? entries field.1) =
      Keyed.get? entries field.1 := by
  have hget := get?_shapeFields_nil hnodup entries field.1
  rw [h, Keyed.get?_of_mem hnodup hfield, Option.bind_some] at hget
  exact hget.symm

theorem shape_kept {schema : Schema} (hschema : schema.DistinctKeys)
    {value left : Value} (hvalue : schema.Shaped value)
    (hsettled : schema.shape value = value) (hkept : kept value = some left) :
    schema.shape left = left := by
  induction schema generalizing value left with
  | object fields ih =>
      rcases hvalue with ⟨entries, hentries, hkeys, _, hfields⟩
      rw [hentries, shape, Value.document.injEq] at hsettled
      rw [hentries, kept, Option.some.injEq] at hkept
      rw [<- hkept, shape]
      congr 1
      have hpick := shapeFields_eq_pick hschema.1 entries
      rw [hsettled] at hpick
      have hdropped : withoutNulls entries =
          pick fields fun field =>
            (field.2.shapeAt (Keyed.get? entries field.1)).bind kept := by
        rw [<- withoutNulls_pick, <- hpick]
      refine (shapeFields_eq_pick hschema.1 _).trans (Eq.trans ?_ hdropped.symm)
      apply pick_congr
      intro field hfield
      rw [get?_withoutNulls hkeys]
      have hat := shapeAt_of_shape_eq hschema.1 hsettled hfield
      have hshaped := shapedFields_iff.mp hfields field hfield
      rw [hat]
      cases hfound : Keyed.get? entries field.1 with
      | none =>
          rfl
      | some found =>
          rw [hfound] at hat hshaped
          cases hown : kept found with
          | none =>
              simp [hown, shapeAt]
          | some inner =>
              have hfixed : field.2.shape found = found := by
                simpa [shapeAt, hshaped.1] using hat
              have hinner := ih field hfield
                (distinctKeysInFields_iff.mp hschema.2 field hfield) hshaped.2
                hfixed hown
              simp [hown, shapeAt, hshaped.1, hinner]
  | array item _ =>
      rcases hvalue with ⟨items, hitems, _⟩
      rw [hitems] at hkept hsettled
      cases hkept
      exact hsettled
  | optional inner ih =>
      cases hvalue with
      | inl hnull =>
          rw [hnull] at hkept
          cases hkept
      | inr hinner =>
          exact ih hschema hinner hsettled hkept
  | omittable inner ih =>
      exact ih hschema hvalue hsettled hkept
  | never =>
      have hnull : value = .null := hvalue
      rw [hnull] at hkept
      cases hkept
  | hidden =>
      have hnull : value = .null := hvalue
      rw [hnull] at hkept
      cases hkept
  | reference collection =>
      have hbefore : (reference collection).ShapedBefore none := by
        intro before hbefore
        cases hbefore
      have hafter := shapedAfter_mergeValue hbefore hvalue
      rw [mergeValue_none, hkept] at hafter
      have hinto : ReferenceInto collection left := hafter
      rw [shape, hinto.shapeReference, Option.getD_some]
  | _ =>
      rfl

end Schema
end DocumentMapper
