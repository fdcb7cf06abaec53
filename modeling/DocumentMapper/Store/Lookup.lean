import DocumentMapper.Sorting.Basic
import DocumentMapper.Store.Basic
import DocumentMapper.Value.Lookup
import DocumentMapper.Value.Path

/-!
# Looking documents up

What an index says about a document, the entries of an index under given terms,
and the check that a unique index makes of a document about to be written.
-/

namespace DocumentMapper

namespace IndexDefinition

/-- The terms of a document, which is not indexed if it lacks any. -/
def termsOf? (index : IndexDefinition) (document : Document) :
    Option (List Value) :=
  index.terms.mapM fun term =>
    (Value.document document).at? (Value.keySteps term.field)

def valuesOf (index : IndexDefinition) (document : Document) : List Value :=
  index.values.map fun value =>
    ((Value.document document).at? (Value.keySteps value.field)).getD .null

/-- The entry that leads to a document: its values, or its reference where the
index has no values. -/
def entryOf (index : IndexDefinition) (document : Document) : Value :=
  if index.values.isEmpty then
    ((Value.document document).at? [.key "ref"]).getD .null
  else
    .array (index.valuesOf document)

def finds (index : IndexDefinition) (terms : List Value) (document : Document) :
    Bool :=
  match index.termsOf? document with
  | some found => found.length = terms.length && Value.allSame found terms
  | none => false

/-!
## Sorting

Rows of values are compared column by column, and the first column that tells
them apart decides.
-/

def orderColumn (value : IndexValue) (a b : Value) : Ordering :=
  if value.reverse then (a.order b).swap else a.order b

def orderRows : List IndexValue -> List Value -> List Value -> Ordering
  | value :: values, a :: as, b :: bs =>
      (orderColumn value a b).then (orderRows values as bs)
  | _, _, _ => .eq

/-- The comparison of two documents by the entries that lead to them. -/
def compareRows (index : IndexDefinition) (a b : Document) : Ordering :=
  orderRows index.values (index.valuesOf a) (index.valuesOf b)

end IndexDefinition

namespace Store

def foundDocuments (store : Store) (index : IndexDefinition) (terms : List Value) :
    List Document :=
  ((store.documentsOf index.source).map Prod.snd).filter (index.finds terms)

/-- The documents that an index finds, in the order of its entries, unless the sort
gives up on them. -/
def matchingDocuments? (store : Store) (index : IndexDefinition) (terms : List Value) :
    Option (List Document) :=
  Sorting.sort? index.compareRows (store.foundDocuments index terms)

/-- The entries of a named index under the given terms.  An index whose source is
gone has none. -/
def matching? (store : Store) (name : String) (terms : List Value) :
    Option (List Value) := do
  let stored <- Keyed.get? store.indexes name
  let found <- store.matchingDocuments? stored.definition terms
  some (found.map stored.definition.entryOf)

/-- Why a named index has no entries to give: they cannot be sorted, or there is no
such index. -/
def matchingError (store : Store) (name : String) : Error :=
  if Keyed.contains store.indexes name then .stopped else .instanceNotFound

/-!
## Uniqueness
-/

def clash (index : IndexDefinition) (a b : Document) : Bool :=
  match index.termsOf? a, index.termsOf? b with
  | some found, some other => Value.allSame found other
  | _, _ => false

def collides (store : Store) (collection : String) (number : Nat)
    (candidate : Document) : Bool :=
  store.indexes.any fun entry =>
    let index := entry.2.definition
    index.isUnique && index.source = collection &&
      (store.documentsOf collection).any fun other =>
        other.1 ≠ number && clash index other.2 candidate

end Store
end DocumentMapper
