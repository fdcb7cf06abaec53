/-!
# Collections and indexes

What there is to say about a collection and about an index when it is created.
An index looks the documents of one collection up by a list of terms and yields
for each a tuple of values, by which its entries are also sorted.  Terms and
values are found in a document by their path.
-/

namespace DocumentMapper

structure CollectionDefinition where
  name : String
deriving DecidableEq

structure IndexTerm where
  field : List String
deriving DecidableEq

structure IndexValue where
  field : List String
  reverse : Bool
deriving DecidableEq

structure IndexDefinition where
  name : String
  /-- The name of the collection that is indexed. -/
  source : String
  terms : List IndexTerm
  values : List IndexValue
  /-- Whether no two documents may share all terms; nothing said means they may. -/
  unique : Option Bool
deriving DecidableEq

def IndexDefinition.isUnique (index : IndexDefinition) : Bool :=
  index.unique.getD false

/-- The reference of the document itself, which ends the entries that lead to
documents. -/
def IndexValue.ownReference : IndexValue :=
  { field := ["ref"], reverse := false }

/-!
## Sort orders

A sort order names fields, a minus sign standing before those of which greater
values come first.
-/

def dataPath (field : String) : List String :=
  ["data", field]

/-- The path of a field in a stored document.  The timestamp and the reference,
also named the id, stand at the top of the document and all else in its data. -/
def storagePath (field : String) : List String :=
  if field = "ts" then ["ts"]
  else if field = "ref" ∨ field = "id" then ["ref"]
  else dataPath field

def sortValue (entry : String) : IndexValue :=
  match entry.toList with
  | '-' :: field =>
      { field := storagePath (String.ofList field), reverse := true }
  | _ =>
      { field := storagePath entry, reverse := false }

/-- Newest first. -/
def defaultSort : List String :=
  ["-ts"]

def sortValues (sort : Option (List String)) : List IndexValue :=
  (sort.getD defaultSort).map sortValue

end DocumentMapper
