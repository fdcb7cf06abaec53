import DocumentMapper.Model.Request
import DocumentMapper.Proofs.Changes
import DocumentMapper.Proofs.IndexEntries

/-!
# The order that indexes sort by

Booleans, numbers, dates and strings are ordered, each among their own kind, and any two
other values are level.  So a null between two numbers is level with both of them, and the
comparison does not lead from the one to the other.

This is the only way in which it fails: some values are in a consistent order exactly where
all of them are level or all are of one kind.  What an index lists is sorted wherever each
of its columns holds such values.
-/

namespace DocumentMapper

inductive Kind where
  | bool
  | number
  | date
  | string
deriving DecidableEq

/-!
## Kinds
-/

def LookupKey.kind? : LookupKey -> Option Kind
  | bool _ => some .bool
  | number _ => some .number
  | date _ => some .date
  | string _ => some .string
  | _ => none

namespace Value

/-- A NaN is of no kind, and neither are values of the types that are not listed. -/
def kind? : Value -> Option Kind
  | bool _ => some .bool
  | int _ _ => some .number
  | double x => if x.isNaN then none else some .number
  | date _ => some .date
  | string _ => some .string
  | _ => none

theorem kind?_eq_bind (value : Value) :
    value.kind? = value.lookupKey?.bind LookupKey.kind? := by
  cases value with
  | double x =>
      rw [kind?, lookupKey?, Binary64.rank?]
      split <;> rfl
  | array items =>
      rw [lookupKey?]
      cases itemKeys? items <;> rfl
  | document entries =>
      rw [lookupKey?]
      cases entryKeys? entries <;> rfl
  | _ =>
      rfl

variable {a b c : Value} {kind : Kind}

theorem exists_kind_of_order (h : a.order b ≠ .eq) :
    exists kind, a.kind? = some kind ∧ b.kind? = some kind := by
  simp only [kind?_eq_bind]
  unfold order at h
  split at h
  · next ha hb => exact ⟨.bool, by rw [ha]; rfl, by rw [hb]; rfl⟩
  · next ha hb => exact ⟨.number, by rw [ha]; rfl, by rw [hb]; rfl⟩
  · next ha hb => exact ⟨.date, by rw [ha]; rfl, by rw [hb]; rfl⟩
  · next ha hb => exact ⟨.string, by rw [ha]; rfl, by rw [hb]; rfl⟩
  · exact absurd rfl h

theorem exists_kind_of_order_gt (h : a.order b = .gt) :
    exists kind, a.kind? = some kind ∧ b.kind? = some kind :=
  exists_kind_of_order (by simp [h])

theorem order_trans_of_kind (ha : a.kind? = some kind) (hb : b.kind? = some kind)
    (hc : c.kind? = some kind) (hab : (a.order b).isLE = true)
    (hbc : (b.order c).isLE = true) : (a.order c).isLE = true := by
  rw [kind?_eq_bind, Option.bind_eq_some_iff] at ha hb hc
  rcases ha with ⟨keyA, ha, hkindA⟩
  rcases hb with ⟨keyB, hb, hkindB⟩
  rcases hc with ⟨keyC, hc, hkindC⟩
  unfold order at hab hbc ⊢
  rw [ha, hb] at hab
  rw [hb, hc] at hbc
  rw [ha, hc]
  -- Keys of one kind are compared as what they hold.
  cases keyA <;> cases hkindA <;> cases keyB <;> cases hkindB <;> cases keyC <;>
    cases hkindC <;> simp only at hab hbc ⊢ <;> exact Std.TransCmp.isLE_trans hab hbc

theorem order_eq_of_kind_ne (ha : a.kind? = some kind) (hb : b.kind? ≠ some kind) :
    a.order b = .eq := by
  by_contra hapart
  rcases exists_kind_of_order hapart with ⟨other, ha', hb'⟩
  rw [ha] at ha'
  cases ha'
  exact hb hb'

theorem order_null (a : Value) : a.order .null = .eq := by
  by_contra hapart
  rcases exists_kind_of_order hapart with ⟨kind, _, hnull⟩
  cases hnull

theorem null_order (a : Value) : Value.null.order a = .eq := by
  rw [<- order_swap, order_null]
  rfl

/-- The comparison leads from one value over a second to a third, unless the first is greater
than the third and the second is of another kind. -/
theorem order_trans_iff : (a.order b ≠ .gt -> b.order c ≠ .gt -> a.order c ≠ .gt) <->
    (a.order c = .gt -> b.kind? = a.kind?) := by
  constructor
  · intro hleads hgt
    rcases exists_kind_of_order_gt hgt with ⟨kind, ha, hc⟩
    rw [ha]
    by_contra hb
    have hab : a.order b = .eq := order_eq_of_kind_ne ha hb
    have hbc : b.order c = .eq := by
      rw [<- order_swap, order_eq_of_kind_ne hc hb]
      rfl
    exact hleads (by simp [hab]) (by simp [hbc]) hgt
  · intro hkind hab hbc hgt
    rcases exists_kind_of_order_gt hgt with ⟨kind, ha, hc⟩
    have hb : b.kind? = some kind := (hkind hgt).trans ha
    have hle := order_trans_of_kind ha hb hc (Ordering.isLE_iff_ne_gt.mpr hab)
      (Ordering.isLE_iff_ne_gt.mpr hbc)
    rw [hgt] at hle
    cases hle

/-!
## Values in a consistent order
-/

abbrev InOrder (values : List Value) : Prop :=
  TransitiveOn (fun a b => (a.order b).isLE) values

theorem exists_gt_of_apart {values : List Value}
    (h : ¬ forall a, a ∈ values -> forall b, b ∈ values -> a.order b = .eq) :
    exists a, a ∈ values ∧ exists b, b ∈ values ∧ a.order b = .gt := by
  push Not at h
  rcases h with ⟨a, ha, b, hb, hapart⟩
  cases horder : a.order b with
  | eq => exact absurd horder hapart
  | gt => exact ⟨a, ha, b, hb, horder⟩
  | lt =>
      refine ⟨b, hb, a, ha, ?_⟩
      rw [<- order_swap, horder]
      rfl

theorem inOrder_iff {values : List Value} :
    InOrder values <->
      (forall a, a ∈ values -> forall b, b ∈ values -> a.order b = .eq) ∨
        exists kind, forall a, a ∈ values -> a.kind? = some kind := by
  constructor
  · intro horder
    by_cases hlevel : forall a, a ∈ values -> forall b, b ∈ values -> a.order b = .eq
    · exact Or.inl hlevel
    · rcases exists_gt_of_apart hlevel with ⟨a, ha, c, hc, hgt⟩
      rcases exists_kind_of_order_gt hgt with ⟨kind, hkindA, _⟩
      refine Or.inr ⟨kind, fun b hb => ?_⟩
      have hleads : a.order b ≠ .gt -> b.order c ≠ .gt -> a.order c ≠ .gt := by
        simpa only [Ordering.isLE_iff_ne_gt] using horder a ha b hb c hc
      exact (order_trans_iff.mp hleads hgt).trans hkindA
  · rintro (hlevel | ⟨kind, hkind⟩) a ha b hb c hc hab hbc
    · simp [hlevel a ha c hc]
    · exact order_trans_of_kind (hkind a ha) (hkind b hb) (hkind c hc) hab hbc

end Value

/-!
## Sorted entries
-/

namespace IndexDefinition

variable {index : IndexDefinition} {documents : List Document} {value : IndexValue}

theorem transCmp_of_inOrder (h : Value.InOrder (documents.map (column value))) :
    Std.TransCmp (compareColumn documents value) where
  eq_swap := (orderColumn_swap value _ _).symm
  isLE_trans {a b c} hab hbc := by
    have ha := List.mem_map_of_mem (f := column value) a.2
    have hb := List.mem_map_of_mem (f := column value) b.2
    have hc := List.mem_map_of_mem (f := column value) c.2
    unfold compareColumn orderColumn at hab hbc ⊢
    cases hreverse : value.reverse with
    | false =>
        simp only [hreverse, Bool.false_eq_true, if_false] at hab hbc ⊢
        exact h _ ha _ hb _ hc hab hbc
    | true =>
        simp only [hreverse, if_true, Value.order_swap] at hab hbc ⊢
        exact h _ hc _ hb _ ha hbc hab

theorem preordersOn_of_inOrder
    (h : forall value, value ∈ index.values ->
      Value.InOrder (documents.map (column value))) : index.PreordersOn documents :=
  preordersOn_of_transCmp fun value hvalue => transCmp_of_inOrder (h value hvalue)

end IndexDefinition

namespace Store

theorem exists_sorted_matchingDocuments? {store : Store} {index : IndexDefinition}
    {terms : List Value} (h : index.PreordersOn (store.foundDocuments index terms)) :
    exists found, store.matchingDocuments? index terms = some found ∧
      found.Pairwise fun a b => index.precedes a b = true :=
  ⟨_, matchingDocuments?_eq h, pairwise_matchingDocuments? h (matchingDocuments?_eq h)⟩

/-!
# Main statement
-/

theorem order_is_consistent_within_a_kind (a b c : Value) (values : List Value)
    (store : Store) (index : IndexDefinition) (terms : List Value) :
    (a.order b).swap = b.order a ∧
    ((a.order b ≠ .gt -> b.order c ≠ .gt -> a.order c ≠ .gt) <->
      (a.order c = .gt -> b.kind? = a.kind?)) ∧
    (Value.InOrder values <->
      (forall a, a ∈ values -> forall b, b ∈ values -> a.order b = .eq) ∨
        exists kind, forall a, a ∈ values -> a.kind? = some kind) ∧
    ((forall value, value ∈ index.values ->
        Value.InOrder ((store.foundDocuments index terms).map
          (IndexDefinition.column value))) ->
      exists found, store.matchingDocuments? index terms = some found ∧
        found.Pairwise fun a b => index.precedes a b = true) :=
  ⟨Value.order_swap a b, Value.order_trans_iff, Value.inOrder_iff, fun hcolumns =>
    exists_sorted_matchingDocuments? (IndexDefinition.preordersOn_of_inOrder hcolumns)⟩

/-!
The statement at one store: an index over the counts of two notes lists the smaller first,
whatever their widths, and a null between the two is level with both.
-/

def countedNote (number : Nat) (count : Option Value) : Document :=
  storedDocument (numbered "Note" number) (number + 2)
    (count.toList.map fun count => ("count", count))

theorem foundDocuments_two :
    (countedNotes [some (.int .short 2), some (.int .long 1)]).foundDocuments
        notesByCount [] =
      [countedNote 1 (some (.int .short 2)), countedNote 2 (some (.int .long 1))] := by
  with_unfolding_all rfl

theorem matchingDocuments?_two :
    (countedNotes [some (.int .short 2), some (.int .long 1)]).matchingDocuments?
        notesByCount [] =
      some [countedNote 2 (some (.int .long 1)), countedNote 1 (some (.int .short 2))] := by
  with_unfolding_all rfl

theorem order_is_consistent_within_a_kind_notes :
    (Value.int .short 2).order (.int .long 1) = .gt ∧
      ¬ ((Value.int .short 2).order .null ≠ .gt -> Value.null.order (.int .long 1) ≠ .gt ->
        (Value.int .short 2).order (.int .long 1) ≠ .gt) ∧
      Value.InOrder [.int .short 2, .int .long 1] ∧
      [countedNote 2 (some (.int .long 1)), countedNote 1 (some (.int .short 2))].Pairwise
        fun a b => notesByCount.precedes a b = true := by
  have hgreater : (Value.int .short 2).order (.int .long 1) = .gt := by
    with_unfolding_all rfl
  rcases order_is_consistent_within_a_kind (.int .short 2) .null (.int .long 1)
    [.int .short 2, .int .long 1]
    (countedNotes [some (.int .short 2), some (.int .long 1)]) notesByCount [] with
    ⟨_, htrans, hiff, hsorted⟩
  have hnumbers : Value.InOrder [.int .short 2, .int .long 1] :=
    hiff.mpr (Or.inr ⟨.number, by simp [Value.kind?]⟩)
  refine ⟨hgreater, fun hleads => ?_, hnumbers, ?_⟩
  · have hkind := htrans.mp hleads hgreater
    cases hkind
  · rw [foundDocuments_two, matchingDocuments?_two] at hsorted
    rcases hsorted fun value hvalue => by
      rw [List.mem_singleton.mp hvalue]
      exact hnumbers with ⟨found, hfound, hordered⟩
    cases hfound
    exact hordered

/-!
The exception: with notes that have no count between them two notes are listed as they were
stored, the one of the larger count first.
-/

theorem null_leads_past_order :
    ((Value.int .short 2).order .null ≠ .gt ∧ Value.null.order (.int .short 1) ≠ .gt ∧
        (Value.int .short 2).order (.int .short 1) = .gt) ∧
      (countedNotes [some (.int .short 2), none, none, some (.int .short 1)]).Reachable ∧
      (countedNotes [some (.int .short 2), none, none, some (.int .short 1)]).matching?
          "notes_by_count" [] =
        some [.array [.int .short 2], .array [.null], .array [.null],
          .array [.int .short 1]] := by
  refine ⟨⟨by simp [Value.order_null], by simp [Value.null_order], ?_⟩,
    LeadsTo.start.afterAll _ _, ?_⟩
  · with_unfolding_all rfl
  · with_unfolding_all rfl

end Store
end DocumentMapper
