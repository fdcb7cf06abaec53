import DocumentMapper.Proofs.Keyed
import DocumentMapper.Proofs.StableSort
import DocumentMapper.Store.Lookup

/-!
# The order of rows

Documents are compared row by row.  Whatever they hold, of any two rows one may stand before
the other; but a row may be level with two that are not level with each other.  Where no row
does this the sort of a lookup answers, and else it may give up.
-/

namespace DocumentMapper

/-!
## Comparing rows
-/

theorem Value.order_swap (a b : Value) : (a.order b).swap = b.order a := by
  unfold order
  cases a.lookupKey? with
  | none =>
      cases b.lookupKey? with
      | none => rfl
      | some other => cases other <;> rfl
  | some key =>
      cases b.lookupKey? with
      | none =>
          cases key <;> rfl
      | some other =>
          cases key <;> cases other <;>
            first
            | rfl
            | exact Std.OrientedOrd.eq_swap.symm

namespace IndexDefinition

theorem orderColumn_swap (value : IndexValue) (a b : Value) :
    (orderColumn value a b).swap = orderColumn value b a := by
  unfold orderColumn
  split
  · rw [Value.order_swap, Value.order_swap]
  · rw [Value.order_swap]

theorem orderRows_swap (values : List IndexValue) (as bs : List Value) :
    (orderRows values as bs).swap = orderRows values bs as := by
  induction values generalizing as bs with
  | nil =>
      cases as <;> cases bs <;> rfl
  | cons value rest ih =>
      cases as with
      | nil =>
          cases bs <;> rfl
      | cons a as =>
          cases bs with
          | nil => rfl
          | cons b bs =>
              rw [orderRows, orderRows, Ordering.swap_then, orderColumn_swap, ih]

variable {index : IndexDefinition}

def precedes (index : IndexDefinition) (a b : Document) : Bool :=
  (index.compareRows a b).isLE

theorem precedes_eq (index : IndexDefinition) (a b : Document) :
    index.precedes a b = (index.compareRows a b).isLE :=
  rfl

theorem compareRows_swap (index : IndexDefinition) (a b : Document) :
    (index.compareRows a b).swap = index.compareRows b a :=
  orderRows_swap index.values _ _

theorem compareRows_self (index : IndexDefinition) (a : Document) :
    index.compareRows a a = .eq := by
  have hswap := index.compareRows_swap a a
  cases h : index.compareRows a a with
  | eq => rfl
  | lt => simp [h] at hswap
  | gt => simp [h] at hswap

theorem precedes_of_level {a b : Document} (h : index.compareRows a b = .eq) :
    index.precedes a b = true := by
  rw [precedes_eq, h]
  rfl

/-- The comparison makes a total preorder of some documents.  That of any two one may
stand before the other is so for all documents, see `compareRows_swap`. -/
def PreordersOn (index : IndexDefinition) (documents : List Document) : Prop :=
  TransitiveOn index.precedes documents

end IndexDefinition

/-!
## Sorting rows
-/

namespace Store

variable {store : Store} {index : IndexDefinition} {terms : List Value}

theorem matchingDocuments?_eq (h : index.PreordersOn (store.foundDocuments index terms)) :
    store.matchingDocuments? index terms =
      some ((store.foundDocuments index terms).mergeSort index.precedes) :=
  Sorting.sort?_eq_mergeSort index.compareRows_swap h

theorem pairwise_matchingDocuments?
    (h : index.PreordersOn (store.foundDocuments index terms)) {found : List Document}
    (hfound : store.matchingDocuments? index terms = some found) :
    found.Pairwise fun a b => index.precedes a b = true := by
  have hearly : (store.foundDocuments index terms).Pairwise fun _ _ => True :=
    List.pairwise_of_forall_mem_list fun _ _ _ _ => trivial
  refine (Sorting.pairwise_sort? index.compareRows_swap h hearly hfound).imp ?_
  rintro a b (hbefore | ⟨hlevel, _⟩)
  · rw [IndexDefinition.precedes_eq, hbefore]
    rfl
  · exact IndexDefinition.precedes_of_level hlevel

theorem perm_matchingDocuments? {found : List Document}
    (h : store.matchingDocuments? index terms = some found) :
    found.Perm (store.foundDocuments index terms) :=
  Sorting.perm_sort? h

theorem exists_matchingDocuments?_of_length_le
    (h : (store.foundDocuments index terms).length <= 20) :
    exists found, store.matchingDocuments? index terms = some found :=
  Sorting.exists_sort?_of_length_le index.compareRows h

theorem matching?_of_index {name : String} {stored : StoredIndex}
    (h : Keyed.get? store.indexes name = some stored) :
    store.matching? name terms =
      (store.matchingDocuments? stored.definition terms).map
        (List.map stored.definition.entryOf) := by
  rw [matching?, h]
  exact Option.map_eq_bind.symm

theorem matching?_eq_some_iff {name : String} {entries : List Value} :
    store.matching? name terms = some entries <->
      exists stored found, Keyed.get? store.indexes name = some stored ∧
        store.matchingDocuments? stored.definition terms = some found ∧
        found.map stored.definition.entryOf = entries := by
  simp [matching?, Option.bind_eq_some_iff]

/-- An index finds more than a few rows, and they are in no consistent order. -/
def OutOfOrder (store : Store) (index : IndexDefinition) (terms : List Value) : Prop :=
  20 < (store.foundDocuments index terms).length ∧
    ¬ index.PreordersOn (store.foundDocuments index terms)

theorem outOfOrder_of_matchingDocuments? (h : store.matchingDocuments? index terms = none) :
    store.OutOfOrder index terms := by
  constructor
  · by_contra hfew
    rcases exists_matchingDocuments?_of_length_le (Nat.le_of_not_lt hfew) with ⟨found, hfound⟩
    rw [hfound] at h
    cases h
  · intro hordered
    rw [matchingDocuments?_eq hordered] at h
    cases h

def Disordered (store : Store) : Prop :=
  exists name stored terms, Keyed.get? store.indexes name = some stored ∧
    store.OutOfOrder stored.definition terms

theorem disordered_of_matching? {name : String} (h : store.matching? name terms = none)
    (hindex : Keyed.contains store.indexes name = true) : store.Disordered := by
  rcases Keyed.contains_iff.mp hindex with ⟨stored, hstored⟩
  rw [matching?_of_index hstored, Option.map_eq_none_iff] at h
  exact ⟨name, stored, terms, hstored, outOfOrder_of_matchingDocuments? h⟩

end Store
end DocumentMapper
