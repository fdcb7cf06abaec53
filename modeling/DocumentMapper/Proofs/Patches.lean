import DocumentMapper.Proofs.Keyed
import DocumentMapper.Value.Patch

/-!
# Laws of patches

What dropping nulls and merging do to a document is said key by key: what is left
under a key depends on what the patch says under it and on what was there.
-/

namespace DocumentMapper
namespace Document

/-!
## Dropping nulls
-/

theorem kept_ne_null {value left : Value} (h : kept value = some left) :
    left ≠ .null := by
  cases value <;> simp [kept] at h <;> simp [<- h]

theorem sublist_keys_withoutNulls (entries : Document) :
    (Keyed.keys (withoutNulls entries)).Sublist (Keyed.keys entries) := by
  induction entries with
  | nil =>
      exact List.Sublist.refl _
  | cons entry rest ih =>
      rcases entry with ⟨key, value⟩
      rw [withoutNulls]
      cases kept value with
      | none =>
          exact List.Sublist.cons key ih
      | some left =>
          exact List.Sublist.cons_cons key ih

theorem nodup_keys_withoutNulls {entries : Document}
    (h : (Keyed.keys entries).Nodup) :
    (Keyed.keys (withoutNulls entries)).Nodup :=
  h.sublist (sublist_keys_withoutNulls entries)

theorem get?_withoutNulls {entries : Document}
    (h : (Keyed.keys entries).Nodup) (wanted : String) :
    Keyed.get? (withoutNulls entries) wanted =
      (Keyed.get? entries wanted).bind kept := by
  induction entries with
  | nil =>
      rfl
  | cons entry rest ih =>
      rcases entry with ⟨key, value⟩
      have hcons : key ∉ Keyed.keys rest ∧ (Keyed.keys rest).Nodup :=
        List.nodup_cons.mp h
      have hrest := ih hcons.2
      rw [withoutNulls, Keyed.get?_cons]
      cases hleft : kept value with
      | none =>
          by_cases hkey : key = wanted
          · rw [if_pos hkey, Option.bind_some, hleft, hrest, <- hkey,
              Keyed.get?_eq_none_iff.mpr hcons.1]
            rfl
          · rw [if_neg hkey]
            exact hrest
      | some left =>
          show Keyed.get? ((key, left) :: withoutNulls rest) wanted = _
          rw [Keyed.get?_cons, hrest]
          by_cases hkey : key = wanted
          · rw [if_pos hkey, if_pos hkey, Option.bind_some, hleft]
          · rw [if_neg hkey, if_neg hkey]

theorem get?_withoutNulls_ne_null {entries : Document}
    (h : (Keyed.keys entries).Nodup) (wanted : String) :
    Keyed.get? (withoutNulls entries) wanted ≠ some .null := by
  intro hnull
  rw [get?_withoutNulls h, Option.bind_eq_some_iff] at hnull
  rcases hnull with ⟨value, _, hkept⟩
  exact kept_ne_null hkept rfl

/-!
## Merging
-/

theorem mergeValue_ne_null {old : Option Value} {value left : Value}
    (h : mergeValue old value = some left) : left ≠ .null := by
  cases value with
  | null =>
      cases h
  | document nested =>
      unfold mergeValue at h
      split at h
      · cases h
        simp
      · cases h
        simp
  | _ =>
      cases h
      simp

theorem mergeValue_none (value : Value) : mergeValue none value = kept value := by
  cases value <;> rfl

theorem get?_assign (target : Document) (key : String) (left : Option Value)
    (wanted : String) :
    Keyed.get? (assign target key left) wanted =
      if key = wanted then left else Keyed.get? target wanted := by
  cases left with
  | none => exact Keyed.get?_erase target key wanted
  | some value => exact Keyed.get?_insert target key wanted value

theorem nodup_keys_assign {target : Document} (h : (Keyed.keys target).Nodup)
    (key : String) (left : Option Value) :
    (Keyed.keys (assign target key left)).Nodup := by
  cases left with
  | none => exact Keyed.nodup_keys_erase key h
  | some value => exact Keyed.nodup_keys_insert key value h

theorem nodup_keys_merge {target : Document} (h : (Keyed.keys target).Nodup)
    (patch : Document) : (Keyed.keys (merge target patch)).Nodup := by
  induction patch generalizing target with
  | nil =>
      exact h
  | cons entry rest ih =>
      rcases entry with ⟨key, value⟩
      exact ih (nodup_keys_assign h key _)

/-- What a merge leaves under a key: a patch that does not mention the key leaves
what was there. -/
def mergedAt (old : Option Value) : Option Value -> Option Value
  | some value => mergeValue old value
  | none => old

theorem get?_merge {patch : Document} (h : (Keyed.keys patch).Nodup)
    (target : Document) (wanted : String) :
    Keyed.get? (merge target patch) wanted =
      mergedAt (Keyed.get? target wanted) (Keyed.get? patch wanted) := by
  induction patch generalizing target with
  | nil =>
      rfl
  | cons entry rest ih =>
      rcases entry with ⟨key, value⟩
      have hcons : key ∉ Keyed.keys rest ∧ (Keyed.keys rest).Nodup :=
        List.nodup_cons.mp h
      rw [merge, ih hcons.2, Keyed.get?_cons, get?_assign]
      by_cases hkey : key = wanted
      · rw [if_pos hkey, if_pos hkey, <- hkey,
          Keyed.get?_eq_none_iff.mpr hcons.1]
        rfl
      · rw [if_neg hkey, if_neg hkey]

theorem get?_merge_ne_null {patch : Document} (h : (Keyed.keys patch).Nodup)
    {target : Document} {wanted : String}
    (htarget : Keyed.get? target wanted ≠ some .null) :
    Keyed.get? (merge target patch) wanted ≠ some .null := by
  rw [get?_merge h]
  cases Keyed.get? patch wanted with
  | none => exact htarget
  | some value => exact fun hnull => mergeValue_ne_null hnull rfl

/-!
## Merging into nothing
-/

theorem merge_append {target patch : Document} (hkeys : (Keyed.keys patch).Nodup)
    (hfresh : forall key, key ∈ Keyed.keys patch -> key ∉ Keyed.keys target) :
    merge target patch = target ++ withoutNulls patch := by
  induction patch generalizing target with
  | nil =>
      simp [merge, withoutNulls]
  | cons entry rest ih =>
      rcases entry with ⟨key, value⟩
      have hcons : key ∉ Keyed.keys rest ∧ (Keyed.keys rest).Nodup :=
        List.nodup_cons.mp hkeys
      have hkey : key ∉ Keyed.keys target := hfresh key List.mem_cons_self
      have hrest : forall other, other ∈ Keyed.keys rest -> other ∉ Keyed.keys target :=
        fun other hother => hfresh other (List.mem_cons_of_mem _ hother)
      rw [merge, withoutNulls, Keyed.get?_eq_none_iff.mpr hkey, mergeValue_none]
      cases kept value with
      | none =>
          rw [assign, Keyed.erase_of_absent (Keyed.get?_eq_none_iff.mpr hkey)]
          exact ih hcons.2 hrest
      | some left =>
          have hafter : forall other, other ∈ Keyed.keys rest ->
              other ∉ Keyed.keys (target ++ [(key, left)]) := by
            intro other hother hmem
            rw [Keyed.keys_append, List.mem_append] at hmem
            rcases hmem with hold | hnew
            · exact hrest other hother hold
            · have heq : other = key := List.mem_singleton.mp hnew
              exact hcons.1 (heq ▸ hother)
          rw [assign, Keyed.insert_of_fresh hkey, ih hcons.2 hafter]
          simp

theorem merge_nil {patch : Document} (hkeys : (Keyed.keys patch).Nodup) :
    merge [] patch = withoutNulls patch :=
  merge_append hkeys fun _ _ => List.not_mem_nil

def existing (old : Option Value) : Document :=
  (old.bind Value.document?).getD []

/-- A document in a patch is merged into the document that is there, or into nothing. -/
theorem mergeValue_document {nested : Document} (hkeys : (Keyed.keys nested).Nodup)
    (old : Option Value) :
    mergeValue old (.document nested) = some (.document (merge (existing old) nested)) := by
  unfold mergeValue
  split
  · rfl
  · next hother =>
      have hnone : existing old = [] := by
        cases old with
        | none => rfl
        | some value =>
            cases value with
            | document existing => exact absurd rfl (hother existing)
            | _ => rfl
      rw [hnone, merge_nil hkeys]

/-!
## Nulls at any depth
-/

/-- The value stands at a key of the document, or of a document nested in it. -/
inductive Holds : Document -> Value -> Prop where
  | here {entries : Document} {key : String} {value : Value}
      (hentry : (key, value) ∈ entries) : Holds entries value
  | nested {entries inner : Document} {key : String} {value : Value}
      (hentry : (key, .document inner) ∈ entries) (hinner : Holds inner value) :
      Holds entries value

/-- No null stands at a key that is reached through nested documents. -/
def NullFree (entries : Document) : Prop :=
  ¬ Holds entries .null

def Clean (value : Value) : Prop :=
  value ≠ .null ∧ forall inner, value = .document inner -> NullFree inner

theorem nullFree_iff {entries : Document} :
    NullFree entries <-> forall entry, entry ∈ entries -> Clean entry.2 := by
  constructor
  · rintro h ⟨key, value⟩ hentry
    constructor
    · rintro rfl
      exact h (.here hentry)
    · rintro inner rfl hinner
      exact h (.nested hentry hinner)
  · intro h hnull
    cases hnull with
    | here hentry => exact (h _ hentry).1 rfl
    | nested hentry hinner => exact (h _ hentry).2 _ rfl hinner

theorem clean_document {inner : Document} (h : NullFree inner) :
    Clean (.document inner) := by
  refine ⟨by simp, ?_⟩
  rintro other ⟨⟩
  exact h

theorem mem_withoutNulls {entries : Document} {key : String} {left : Value}
    (h : (key, left) ∈ withoutNulls entries) :
    exists value, kept value = some left := by
  induction entries with
  | nil =>
      cases h
  | cons entry rest ih =>
      rw [withoutNulls] at h
      cases hleft : kept entry.2 with
      | none =>
          rw [hleft] at h
          exact ih h
      | some other =>
          rw [hleft] at h
          rcases List.mem_cons.mp h with heq | hrest
          · cases heq
            exact ⟨entry.2, hleft⟩
          · exact ih hrest

theorem eq_withoutNulls_of_kept {value : Value} {inner : Document}
    (h : kept value = some (.document inner)) :
    exists nested, inner = withoutNulls nested := by
  cases value with
  | document nested =>
      cases h
      exact ⟨nested, rfl⟩
  | _ =>
      cases h

theorem nullFree_withoutNulls (entries : Document) : NullFree (withoutNulls entries) := by
  -- The induction follows the path to the null through what is left of each document.
  intro hnull
  generalize hdata : withoutNulls entries = data at hnull
  generalize hvalue : Value.null = value at hnull
  induction hnull generalizing entries with
  | here hentry =>
      subst hdata hvalue
      rcases mem_withoutNulls hentry with ⟨value, hkept⟩
      exact kept_ne_null hkept rfl
  | nested hentry _ ih =>
      subst hdata
      rcases mem_withoutNulls hentry with ⟨value, hkept⟩
      rcases eq_withoutNulls_of_kept hkept with ⟨nested, hinner⟩
      exact ih nested hinner.symm hvalue

theorem nullFree_assign {target : Document} (htarget : NullFree target) (key : String)
    {left : Option Value} (hleft : forall value, left = some value -> Clean value) :
    NullFree (assign target key left) := by
  rw [nullFree_iff] at htarget ⊢
  cases left with
  | none =>
      exact fun entry hentry => htarget entry (Keyed.mem_of_mem_erase hentry)
  | some value =>
      intro entry hentry
      cases Keyed.mem_of_mem_insert hentry with
      | inl hnew => exact hnew ▸ hleft value rfl
      | inr hold => exact htarget entry hold

mutual

theorem clean_mergeValue (value : Value) {old : Option Value}
    (hold : forall value, old = some value -> Clean value) {left : Value}
    (h : mergeValue old value = some left) : Clean left := by
  cases value with
  | null =>
      cases h
  | document nested =>
      unfold mergeValue at h
      split at h
      · next existing =>
          cases h
          exact clean_document (nullFree_merge nested ((hold _ rfl).2 existing rfl))
      · cases h
        exact clean_document (nullFree_withoutNulls nested)
  | _ =>
      cases h
      simp [Clean]

theorem nullFree_merge (patch : Document) {target : Document} (h : NullFree target) :
    NullFree (merge target patch) := by
  match patch with
  | [] => exact h
  | (key, value) :: rest =>
      rw [merge]
      refine nullFree_merge rest (nullFree_assign h key fun left hleft => ?_)
      exact clean_mergeValue value
        (fun old hold => nullFree_iff.mp h _ (Keyed.mem_of_get? hold)) hleft

end

end Document
end DocumentMapper
