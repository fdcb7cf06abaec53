import DocumentMapper.Proofs.NewestFirst
import DocumentMapper.Proofs.SortOrder

/-!
# Rows of one form

Some documents differ only in the strings and the integers that stand in them.  Whatever an
index sorts them by is then of one kind in all of them, or of none, so a lookup among them
answers.
-/

namespace DocumentMapper

namespace Value

/-- Both are strings, both are integers, or they have values of one form under each key. -/
inductive OfOneForm : Value -> Value -> Prop where
  | string (s t : String) : OfOneForm (string s) (string t)
  | int (width width' : Width) (m n : Int) : OfOneForm (int width m) (int width' n)
  | document {as bs : Document}
      (hentries : forall key,
        Option.Rel OfOneForm (Keyed.get? as key) (Keyed.get? bs key)) :
      OfOneForm (document as) (document bs)

theorem ofOneForm_toValue (first second : Reference) :
    OfOneForm first.toValue second.toValue := by
  refine .document fun key => ?_
  rw [Keyed.get?_cons, Keyed.get?_cons]
  split
  · refine .some (.document fun part => ?_)
    rw [Keyed.get?_cons, Keyed.get?_cons, Keyed.get?_cons, Keyed.get?_cons]
    split
    · exact .some (.string _ _)
    · split
      · exact .some (.string _ _)
      · exact .none
  · exact .none

namespace OfOneForm

variable {a b : Value}

theorem kind?_eq (h : OfOneForm a b) : a.kind? = b.kind? := by
  cases h <;> rfl

theorem rel_present? (h : OfOneForm a b) :
    Option.Rel OfOneForm a.present? b.present? := by
  cases h with
  | string s t => exact .some (.string s t)
  | int width width' m n => exact .some (.int width width' m n)
  | document hentries => exact .some (.document hentries)

theorem rel_inside {as bs : Document}
    (h : forall key, Option.Rel OfOneForm (Keyed.get? as key) (Keyed.get? bs key))
    (name : String) : Option.Rel OfOneForm ( entry? as name) ( entry? bs name) := by
  have hkey := h Reference.key
  unfold entry?
  generalize Keyed.get? as Reference.key = inside,
    Keyed.get? bs Reference.key = inside' at hkey ⊢
  cases hkey with
  | none => exact h name
  | some hinside =>
      cases hinside with
      | document htarget =>
          simp only [Option.bind_some, document?]
          split
          · exact htarget name
          · exact h name
      | _ => exact h name

theorem rel_at? (h : OfOneForm a b) (path : List Step) :
    Option.Rel OfOneForm (a.at? path) (b.at? path) := by
  induction path generalizing a b with
  | nil =>
      rw [at?_nil, at?_nil]
      exact h.rel_present?
  | cons step rest ih =>
      rw [at?_cons, at?_cons]
      cases h with
      | @document as bs hentries =>
          cases step with
          | position place => exact .none
          | key name =>
              have hrel := rel_inside hentries name
              rw [step?, step?]
              generalize entry? as name = inner, entry? bs name = inner' at hrel ⊢
              cases hrel with
              | none => exact .none
              | some hinner => exact ih hinner
      | _ =>
          cases step <;> exact .none

end OfOneForm

theorem inOrder_of_kind?_eq {values : List Value}
    (h : forall a, a ∈ values -> forall b, b ∈ values -> a.kind? = b.kind?) :
    InOrder values := by
  rw [inOrder_iff]
  by_cases hkind : exists a, a ∈ values ∧ exists kind, a.kind? = some kind
  · rcases hkind with ⟨a, ha, kind, hkind⟩
    exact Or.inr ⟨kind, fun b hb => (h b hb a ha).trans hkind⟩
  · refine Or.inl fun a ha b _ => ?_
    by_contra hapart
    rcases exists_kind_of_order hapart with ⟨kind, hown, _⟩
    exact hkind ⟨a, ha, kind, hown⟩

end Value

namespace IndexDefinition

variable {index : IndexDefinition} {documents : List Document}

theorem preordersOn_of_kind?_eq
    (h : forall value, value ∈ index.values -> forall a, a ∈ documents ->
      forall b, b ∈ documents -> (column value a).kind? = (column value b).kind?) :
    index.PreordersOn documents := by
  refine preordersOn_of_inOrder fun value hvalue => Value.inOrder_of_kind?_eq ?_
  intro x hx y hy
  rcases List.mem_map.mp hx with ⟨a, ha, rfl⟩
  rcases List.mem_map.mp hy with ⟨b, hb, rfl⟩
  exact h value hvalue a ha b hb

theorem preordersOn_of_ofOneForm
    (h : forall a, a ∈ documents -> forall b, b ∈ documents ->
      Value.OfOneForm (.document a) (.document b)) : index.PreordersOn documents := by
  refine preordersOn_of_kind?_eq fun value _ a ha b hb => ?_
  have hrel := (h a ha b hb).rel_at? (Value.keySteps value.field)
  unfold column Document.at?
  generalize (Value.document a).at? _ = held, (Value.document b).at? _ = held' at hrel ⊢
  cases hrel with
  | none => rfl
  | some hinner => exact hinner.kind?_eq

/-- Documents are sorted by when they were written, whatever they hold. -/
theorem preordersOn_of_default
    (h : index.values = [IndexValue.newestFirst, IndexValue.ownReference])
    (hstamped : forall document, document ∈ documents ->
      exists own, Document.Stamped own document) : index.PreordersOn documents := by
  have hts : forall document, document ∈ documents ->
      (column .newestFirst document).kind? = some .number := by
    intro document hdocument
    rcases hstamped document hdocument with ⟨own, hown⟩
    rcases hown.ts with ⟨timestamp, hts⟩
    have hcolumn : column .newestFirst document = document.timestamp :=
      congrArg (fun found => found.getD .null) hown.at?_ts
    rw [hcolumn, Document.timestamp, hts]
    rfl
  have href : forall document, document ∈ documents ->
      (column .ownReference document).kind? = none := by
    intro document hdocument
    rcases hstamped document hdocument with ⟨own, hown⟩
    have hcolumn : column .ownReference document = own.toValue :=
      congrArg (fun found => found.getD .null) hown.at?_ref
    rw [hcolumn]
    rfl
  refine preordersOn_of_kind?_eq fun value hvalue a ha b hb => ?_
  rw [h, List.mem_cons, List.mem_singleton] at hvalue
  rcases hvalue with rfl | rfl
  · rw [hts a ha, hts b hb]
  · rw [href a ha, href b hb]

end IndexDefinition
end DocumentMapper
