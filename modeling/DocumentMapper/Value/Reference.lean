import DocumentMapper.Value.Basic

/-!
# References

A reference names a document by its collection and its id.  It travels inside
values as a document of its own, under a key that no other document should use.
Two collection names are reserved: the documents in them are the definitions of
the collections and of the indexes.
-/

namespace DocumentMapper

structure Reference where
  collection : String
  id : String
deriving DecidableEq

namespace Reference

def key : String :=
  "@ref"

def collections : String :=
  "collections"

def indexes : String :=
  "indexes"

def ofCollection (name : String) : Reference :=
  { collection := collections, id := name }

def ofIndex (name : String) : Reference :=
  { collection := indexes, id := name }

def toValue (reference : Reference) : Value :=
  .document
    [(key, .document
      [("collection", .string reference.collection), ("id", .string reference.id)])]

/-- The reference that a value holds.  Other keys beside the two that count are
passed over, on both levels. -/
def ofValue? (value : Value) : Option Reference := do
  let entries <- value.document?
  let held <- Keyed.get? entries key
  let target <- held.document?
  let collection <- Keyed.get? target "collection"
  let id <- Keyed.get? target "id"
  some { collection := (<- collection.string?), id := (<- id.string?) }

def isReference (value : Value) : Bool :=
  (ofValue? value).isSome

def text (reference : Reference) : String :=
  "Ref(" ++ reference.collection ++ ", " ++ reference.id ++ ")"

/-- By collection, then by id, as text. -/
def compare (a b : Reference) : Ordering :=
  (Ord.compare a.collection b.collection).then (Ord.compare a.id b.id)

instance : Ord Reference where
  compare := Reference.compare

theorem ofValue?_toValue (reference : Reference) :
    ofValue? reference.toValue = some reference := by
  rfl

theorem toValue_injective {a b : Reference} (h : a.toValue = b.toValue) : a = b := by
  have hread : some a = some b := by
    rw [<- ofValue?_toValue a, h, ofValue?_toValue]
  exact Option.some.inj hread

end Reference
end DocumentMapper
