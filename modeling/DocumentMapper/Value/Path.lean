import DocumentMapper.Value.Reference

/-!
# Paths

A path leads into a value by keys and positions.  Through a reference it reads
the two parts of its target, and a null counts as absent wherever it is found.
-/

namespace DocumentMapper

inductive Step where
  | key (name : String)
  | position (index : Nat)
deriving DecidableEq

namespace Value

/-- The entry of a document under a key.  Where the document is a reference, its
collection and its id are read from inside. -/
def entry? (entries : Document) (name : String) : Option Value :=
  match (Keyed.get? entries Reference.key).bind document? with
  | some target =>
      if name = "id" ∨ name = "collection" then
        Keyed.get? target name
      else
        Keyed.get? entries name
  | none =>
      Keyed.get? entries name

def step? : Value -> Step -> Option Value
  | document entries, .key name => entry? entries name
  | array items, .position index => items[index]?
  | _, _ => none

def present? (value : Value) : Option Value :=
  if value.isNull then none else some value

def at? : Value -> List Step -> Option Value
  | value, [] => value.present?
  | value, step :: rest => (value.step? step).bind fun inner => inner.at? rest

def keySteps (path : List String) : List Step :=
  path.map Step.key

theorem at?_nil (value : Value) : value.at? [] = value.present? := by
  rw [at?]

theorem at?_cons (value : Value) (step : Step) (rest : List Step) :
    value.at? (step :: rest) =
      (value.step? step).bind fun inner => inner.at? rest := by
  rw [at?]

theorem at?_ne_null (value : Value) (path : List Step) :
    value.at? path ≠ some null := by
  induction path generalizing value with
  | nil =>
      cases value <;> simp [at?, present?, isNull]
  | cons step rest ih =>
      rw [at?_cons]
      cases value.step? step with
      | none => simp
      | some inner => exact ih inner

end Value
end DocumentMapper
