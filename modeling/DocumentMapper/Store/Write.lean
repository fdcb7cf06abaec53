import DocumentMapper.Store.Lookup
import DocumentMapper.Value.Patch

/-!
# Writing to a store

The writes that an expression can ask for.  A write that fails may leave the
counters advanced; it is the query around it that takes everything back.
-/

namespace DocumentMapper
namespace Store

/-!
## Collections and indexes
-/

def createCollection (clock : Clock) (definition : CollectionDefinition) :
    Action Document :=
  fun store =>
    if Keyed.contains store.collections definition.name then
      .error .instanceAlreadyExists store
    else
      let timestamp := store.nextTimestamp clock
      let created : StoredCollection := { timestamp := timestamp, documents := [] }
      .ok (collectionDocument definition.name timestamp)
        { store with
          collections := Keyed.insert store.collections definition.name created
          lastTimestamp := timestamp }

def createIndex (clock : Clock) (definition : IndexDefinition) :
    Action Document :=
  fun store =>
    if Keyed.contains store.indexes definition.name then
      .error .instanceAlreadyExists store
    else if Keyed.contains store.collections definition.source then
      let timestamp := store.nextTimestamp clock
      let created : StoredIndex := { timestamp := timestamp, definition := definition }
      .ok (indexDocument created)
        { store with
          indexes := Keyed.insert store.indexes definition.name created
          lastTimestamp := timestamp }
    else
      .error .instanceNotFound store

/-!
## Documents
-/

def storedDocument (reference : Reference) (timestamp : Int) (data : Document) :
    Document :=
  [("ref", reference.toValue),
    ("ts", .int .long timestamp),
    ("data", .document data)]

def numbered (collection : String) (number : Nat) : Reference :=
  { collection := collection, id := toString number }

def createDocument (clock : Clock) (collection : String) (data : Document) :
    Action Document :=
  fun store =>
    if Keyed.contains store.collections collection then
      let number := store.lastNumber + 1
      let timestamp := store.nextTimestamp clock
      let document :=
        storedDocument (numbered collection number) timestamp
          (Document.withoutNulls data)
      let stepped :=
        { store with lastNumber := number, lastTimestamp := timestamp }
      if stepped.collides collection number document then
        .error .instanceNotUnique stepped
      else
        .ok document (stepped.putDocument collection number document)
    else
      .error .instanceNotFound store

/-- The data of a document, empty where it has none. -/
def dataOf (document : Document) : Document :=
  ((Keyed.get? document "data").bind Value.document?).getD []

/-- A document with a patch merged into its data, as of a new timestamp. -/
def patched (document : Document) (timestamp : Int) (patch : Document) :
    Document :=
  Keyed.insert (Keyed.insert document "ts" (.int .long timestamp)) "data"
    (.document (Document.merge (dataOf document) patch))

def updateDocument (clock : Clock) (reference : Reference) (patch : Document) :
    Action Document :=
  fun store =>
    match store.find? reference, documentNumber? reference.id with
    | some document, some number =>
        let timestamp := store.nextTimestamp clock
        let updated := patched document timestamp patch
        let stepped := { store with lastTimestamp := timestamp }
        if stepped.collides reference.collection number updated then
          .error .instanceNotUnique stepped
        else
          .ok updated (stepped.putDocument reference.collection number updated)
    | _, _ => .error .instanceNotFound store

/-!
## Deletion

Only what a reference names is deleted.  The indexes over a collection outlive
it, and so do the references to it.
-/

def remove (store : Store) (reference : Reference) : Store :=
  if reference.collection = Reference.collections then
    { store with collections := Keyed.erase store.collections reference.id }
  else if reference.collection = Reference.indexes then
    { store with indexes := Keyed.erase store.indexes reference.id }
  else
    match documentNumber? reference.id with
    | some number => store.dropDocument reference.collection number
    | none => store

def delete (reference : Reference) : Action Document :=
  fun store =>
    match store.find? reference with
    | some document => .ok document (store.remove reference)
    | none => .error .instanceNotFound store

end Store
end DocumentMapper
