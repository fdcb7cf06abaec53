import DocumentMapper.Definition.Basic
import DocumentMapper.Error
import DocumentMapper.Ordered

/-!
# Stores

A store holds everything that an in-memory database knows: its collections with
their documents, its indexes, the last number given to a document, and the last
timestamp given to anything.  Numbers and timestamps only grow, so no two
documents ever share one.

An index is kept as its definition alone.  Its entries are found in the documents
of its source whenever it is read.
-/

namespace DocumentMapper

structure StoredCollection where
  timestamp : Int
  /-- The documents by their numbers, in increasing order. -/
  documents : List (Nat × Document)

structure StoredIndex where
  timestamp : Int
  definition : IndexDefinition

structure Store where
  collections : List (String × StoredCollection)
  indexes : List (String × StoredIndex)
  lastNumber : Nat
  lastTimestamp : Int

namespace Store

def empty : Store :=
  { collections := [], indexes := [], lastNumber := 0, lastTimestamp := 0 }

end Store

/-- A step on a store, which answers or fails and leaves a store either way. -/
abbrev Action := EStateM Error Store

/-!
## Time

A clock gives its reading, in microseconds, for the moment after a timestamp was
given.  As timestamps only grow, this is one reading for each of them, and any
sequence of readings is that of some clock: it may stand still or run backwards.
-/

abbrev Clock := Int -> Int

/-- The next timestamp: the reading of the clock, or the least that is later than
the last. -/
def Store.nextTimestamp (clock : Clock) (store : Store) : Int :=
  max (clock store.lastTimestamp) (store.lastTimestamp + 1)

theorem Store.lastTimestamp_lt_nextTimestamp (clock : Clock) (store : Store) :
    store.lastTimestamp < store.nextTimestamp clock := by
  unfold Store.nextTimestamp
  omega

/-!
## Documents by reference
-/

def numberBound : Nat :=
  Nat.pow 2 64

/-- The number that an id names: decimal digits, perhaps after a plus sign. -/
def documentNumber? (id : String) : Option Nat :=
  let digits :=
    match id.toList with
    | '+' :: rest => rest
    | chars => chars
  if digits.isEmpty || !digits.all Char.isDigit then
    none
  else
    let number :=
      digits.foldl (fun total digit => total * 10 + (digit.toNat - 48)) 0
    if number < numberBound then some number else none

namespace Store

def collectionDocument (name : String) (timestamp : Int) : Document :=
  [("ref", (Reference.ofCollection name).toValue),
    ("name", .string name),
    ("ts", .int .long timestamp)]

def indexDocument (index : StoredIndex) : Document :=
  [("ref", (Reference.ofIndex index.definition.name).toValue),
    ("name", .string index.definition.name),
    ("source", (Reference.ofCollection index.definition.source).toValue),
    ("unique", .bool index.definition.isUnique),
    ("ts", .int .long index.timestamp)]

def documentsOf (store : Store) (collection : String) : List (Nat × Document) :=
  ((Keyed.get? store.collections collection).map StoredCollection.documents).getD []

/-- What a reference names.  The two reserved collections hold the documents that
stand for collections and indexes, whatever else is stored under their names. -/
def find? (store : Store) (reference : Reference) : Option Document :=
  if reference.collection = Reference.collections then
    (Keyed.get? store.collections reference.id).map fun stored =>
      collectionDocument reference.id stored.timestamp
  else if reference.collection = Reference.indexes then
    (Keyed.get? store.indexes reference.id).map indexDocument
  else do
    let number <- documentNumber? reference.id
    Keyed.get? (store.documentsOf reference.collection) number

def references? (store : Store) (collection : String) : Option (List Value) :=
  (Keyed.get? store.collections collection).map fun stored =>
    stored.documents.filterMap fun entry => Keyed.get? entry.2 "ref"

def putDocument (store : Store) (collection : String) (number : Nat)
    (document : Document) : Store :=
  match Keyed.get? store.collections collection with
  | some stored =>
      { store with
        collections :=
          Keyed.insert store.collections collection
            { stored with documents := Ordered.insert stored.documents number document } }
  | none => store

def dropDocument (store : Store) (collection : String) (number : Nat) : Store :=
  match Keyed.get? store.collections collection with
  | some stored =>
      { store with
        collections :=
          Keyed.insert store.collections collection
            { stored with documents := Keyed.erase stored.documents number } }
  | none => store

end Store
end DocumentMapper
