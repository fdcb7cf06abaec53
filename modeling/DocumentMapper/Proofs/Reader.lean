import DocumentMapper.Model.Basic
import DocumentMapper.Query.Evaluate

/-!
# Reading instances directly

What the instance of a model at a reference is, worked out from a store without a
query: the recursion goes over the model and there are no variables.

A reading can end in three ways other than with a value.  What a reference or a
field leads to may be missing, what should be a reference may not be one, or a lookup
may be given up.
-/

namespace DocumentMapper

inductive ReadFault where
  /-- There is no such document, or no such index. -/
  | missing
  /-- What should lead to a document is no reference. -/
  | malformed
  /-- The entries of an index cannot be sorted. -/
  | stopped
deriving DecidableEq

abbrev Reading := Except ReadFault

/-- What is there, or a fault. -/
def Reading.found {item : Type} (fault : ReadFault) :
    Option item -> Reading item
  | some a => .ok a
  | none => .error fault

theorem Reading.found_eq_ok_iff {item : Type} {fault : ReadFault}
    {found : Option item} {a : item} :
    Reading.found fault found = .ok a <-> found = some a := by
  cases found <;> simp [Reading.found]

theorem Except.bind_eq_ok_iff {fault item other : Type} {first : Except fault item}
    {next : item -> Except fault other} {b : other} :
    first >>= next = .ok b <-> exists a, first = .ok a ∧ next a = .ok b := by
  cases first <;> simp [bind, Except.bind]

/-!
## Parts of documents
-/

theorem Value.eq_of_present? {value held : Value}
    (h : value.present? = some held) : held = value := by
  unfold Value.present? at h
  split at h
  · cases h
  · cases h
    rfl

namespace Document

def at? (document : Document) (location : List String) : Option Value :=
  (Value.document document).at? (Value.keySteps location)

/-- The id inside the reference that the document carries. -/
def identity (document : Document) : Value :=
  match (Keyed.get? document "ref").bind Reference.ofValue? with
  | some own => .string own.id
  | none => .null

def timestamp (document : Document) : Value :=
  (Keyed.get? document "ts").getD .null

end Document

def Value.last? : Value -> Option Value
  | .array items => items.getLast?.bind present?
  | _ => none

/-!
## Instances
-/

def Store.readMatching (store : Store) (index : String) (terms : List Value) :
    Reading (List Value) :=
  Reading.found (if Keyed.contains store.indexes index then .stopped else .missing)
    (store.matching? index terms)

/-- Reads what each of the first entries of an index under one term ends in. -/
def Store.readEntries (store : Store) (index : String) (start : Value)
    (read : Value -> Reading Value) : Reading Value := do
  let entries <- store.readMatching index [start]
  let items <- (entries.take Expr.pageSize).mapM fun entry => do
    let last <- Reading.found .malformed entry.last?
    read last
  pure (.array items)

mutual

def Model.read (store : Store) : Model -> Value -> Reading Value
  | { name, fields, .. }, start => do
      let reference <- Reading.found .malformed (Reference.ofValue? start)
      let document <- Reading.found .missing (store.find? reference)
      let read <- Field.readAll store name start document fields
      pure
        (.document
          (Keyed.ofList
            (("id", document.identity) :: ("ts", document.timestamp) :: read)))

def Field.read (store : Store) (owner name : String) (start : Value)
    (document : Document) : Field -> Reading Value
  | .scalar _ _ _ => pure ((document.at? (dataPath name)).getD .null)
  | .reference related _ _ _ =>
      match document.at? (dataPath name) with
      | some held => Model.read store related held
      | none => pure .null
  | .manyToMany related _ join _ =>
      store.readEntries (join.forwardIndexName owner name) start fun last =>
        Model.read store related last
  | .reverse related index =>
      store.readEntries index start fun last => Model.read store related last

def Field.readAll (store : Store) (owner : String) (start : Value)
    (document : Document) : List (String × Field) -> Reading Document
  | [] => pure []
  | (name, field) :: rest => do
      let value <- Field.read store owner name start document field
      let values <- Field.readAll store owner start document rest
      pure ((name, value) :: values)

end

theorem Model.read_eq (model : Model) (store : Store) (start : Value) :
    model.read store start = (do
      let reference <- Reading.found .malformed (Reference.ofValue? start)
      let document <- Reading.found .missing (store.find? reference)
      let read <- Field.readAll store model.name start document model.fields
      pure
        (.document
          (Keyed.ofList
            (("id", document.identity) :: ("ts", document.timestamp) :: read)))) := by
  rcases model with ⟨name, fields, derived⟩
  rw [Model.read]

end DocumentMapper
