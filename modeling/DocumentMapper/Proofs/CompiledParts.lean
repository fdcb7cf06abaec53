import DocumentMapper.Model.Request
import DocumentMapper.Proofs.Preservation

/-!
# What requests are made of

The query that reads an instance is made of expressions that name nothing and write
nothing, of the reference that it starts from, and of the indexes that the fields of
the model and of the related models are read from.  So reading an instance, or a list
of them, leaves the store as it is, whatever the store holds.
-/

namespace DocumentMapper

/-!
## Properties of all parts
-/

namespace Expr

def All (Q : Expr -> Prop) (expr : Expr) : Prop :=
  forall part, part ∈ expr.parts -> Q part

/-- The expression itself names no collection and no index, and is no write. -/
def isPlain : Expr -> Bool
  | collection _ => false
  | index _ => false
  | expr => !expr.isWrite

theorem not_isWrite_of_isPlain {expr : Expr} (h : expr.isPlain = true) :
    expr.isWrite = false := by
  cases expr <;> first | rfl | cases h

section

variable {Q : Expr -> Prop} (hplain : forall expr, expr.isPlain = true -> Q expr)

include hplain

theorem all_literal (value : Value) : All Q (literal value) := by
  simp [All, parts, hplain _ (show (literal value).isPlain = true from rfl)]

theorem all_var (name : String) : All Q (var name) := by
  simp [All, parts, hplain _ (show (var name).isPlain = true from rfl)]

theorem all_get {reference : Expr} (h : All Q reference) : All Q (get reference) := by
  simp only [All, parts, List.forall_mem_cons]
  exact ⟨hplain _ rfl, h⟩

theorem all_object {entries : List (String × Expr)}
    (h : forall part, part ∈ partsOfEntries entries -> Q part) :
    All Q (object entries) := by
  simp only [All, parts, List.forall_mem_cons]
  exact ⟨hplain _ rfl, h⟩

theorem all_letIn {bindings : List (String × Expr)} {body : Expr}
    (hbindings : forall part, part ∈ partsOfEntries bindings -> Q part)
    (hbody : All Q body) : All Q (letIn bindings body) := by
  simp only [All, parts, List.forall_mem_cons, List.forall_mem_append]
  exact ⟨hplain _ rfl, hbindings, hbody⟩

theorem all_select {path source : Expr} (hpath : All Q path)
    (hsource : All Q source) : All Q (select path source) := by
  simp only [All, parts, List.forall_mem_cons, List.forall_mem_append]
  exact ⟨hplain _ rfl, hpath, hsource⟩

theorem all_guarded (presence : List String) {value : Expr} (h : All Q value) :
    All Q (guarded presence value) := by
  simpa [guarded, path, null, All, parts, or_imp, forall_and, isPlain, isWrite,
    hplain] using h

theorem all_stored (location : List String) : All Q (stored location) :=
  all_select hplain (all_literal hplain _) (all_var hplain documentVar)

theorem all_lastValue : All Q lastValue := by
  refine all_select hplain ?_ (all_var hplain valuesVar)
  simp [All, parts, partsOfAll, isPlain, isWrite, hplain]

theorem all_listing {set reference item : Expr} (hset : All Q set)
    (hreference : All Q reference) (hitem : All Q item) :
    All Q (listing set reference item) := by
  refine all_select hplain (all_literal hplain _) ?_
  simp only [All, parts, partsOfEntries, List.forall_mem_cons,
    List.forall_mem_append, List.append_nil]
  exact ⟨hplain _ rfl, ⟨hplain _ rfl, hset⟩, hplain _ rfl, hplain _ rfl, hreference,
    hitem⟩

theorem all_listCollection {name : String} (hname : Q (collection name))
    {item : Expr} (hitem : All Q item) : All Q (listCollection name item) := by
  refine all_listing hplain ?_ (all_var hplain valuesVar) hitem
  simp only [All, parts, List.forall_mem_cons]
  exact ⟨hplain _ rfl, hname, by simp⟩

theorem all_listIndex {name : String} (hname : Q (index name)) {terms : List Expr}
    (hterms : forall term, term ∈ terms -> All Q term) {item : Expr}
    (hitem : All Q item) : All Q (listIndex name terms item) := by
  refine all_listing hplain ?_ (all_lastValue hplain) hitem
  simp only [All, parts, List.forall_mem_cons, List.forall_mem_append,
    partsOfAll_eq_flatMap]
  refine ⟨hplain _ rfl, ⟨hname, by simp⟩, hplain _ rfl, ?_⟩
  intro part hpart
  rcases List.mem_flatMap.mp hpart with ⟨term, hterm, hin⟩
  exact hterms term hterm part hin

theorem all_documentRef {collection id : String}
    (hcollection : Q (.collection collection)) :
    All Q (documentRef collection id) := by
  simp only [documentRef, All, parts, List.forall_mem_cons, List.forall_mem_append]
  exact ⟨hplain _ rfl, ⟨hcollection, by simp⟩, all_literal hplain _⟩

end

end Expr

/-!
## Reading instances
-/

mutual

def Model.readIndexes : Model -> List String
  | { name, fields, .. } => Field.readIndexesOf name fields

def Field.readIndexes (owner name : String) : Field -> List String
  | .scalar _ _ _ => []
  | .reference related _ _ _ => related.readIndexes
  | .manyToMany related _ join _ =>
      join.forwardIndexName owner name :: related.readIndexes
  | .reverse related index => index :: related.readIndexes

def Field.readIndexesOf (owner : String) : List (String × Field) -> List String
  | [] => []
  | (name, field) :: rest =>
      Field.readIndexes owner name field ++ Field.readIndexesOf owner rest

end

theorem Model.readIndexes_eq_flatMap (model : Model) :
    model.readIndexes =
      model.fields.flatMap fun field => field.2.readIndexes model.name field.1 := by
  rcases model with ⟨name, fields, derived⟩
  rw [Model.readIndexes]
  induction fields with
  | nil => rfl
  | cons field rest ih => rw [Field.readIndexesOf, ih, List.flatMap_cons]

section

open DocumentMapper.Expr

variable {Q : Expr -> Prop} (hplain : forall expr, expr.isPlain = true -> Q expr)

include hplain

mutual

theorem Model.all_dereference :
    forall (model : Model) (reference : Expr), All Q reference ->
      (forall name, name ∈ model.readIndexes -> Q (.index name)) ->
        All Q (model.dereference reference)
  | { name, fields, .. }, reference, hreference, hindexes => by
      have hfields := Field.all_projections fields name hindexes
      have hid := all_guarded hplain ["ref"] (all_stored hplain ["ref", "id"])
      have hts := all_guarded hplain ["ts"] (all_stored hplain ["ts"])
      rw [Model.dereference]
      refine all_letIn hplain ?_ (all_object hplain ?_)
      · simp only [partsOfEntries, List.forall_mem_append]
        exact ⟨hreference, all_get hplain (all_var hplain refVar), by simp⟩
      · simp only [partsOfEntries, List.forall_mem_append]
        exact ⟨hid, hts, hfields⟩

theorem Field.all_query :
    forall (field : Field) (owner name : String),
      (forall read, read ∈ field.readIndexes owner name -> Q (.index read)) ->
        All Q (field.query owner name)
  | .scalar _ _ _, owner, name, _ => by
      simp [Field.query, path, null, All, parts, isPlain, isWrite, hplain]
  | .reference related isOptional _ _, owner, name, hindexes => by
      have hfollowed := Model.all_dereference related (stored (dataPath name))
        (all_stored hplain (dataPath name)) hindexes
      rw [Field.query]
      split
      · exact all_guarded hplain (dataPath name) hfollowed
      · exact hfollowed
  | .manyToMany related _ join _, owner, name, hindexes => by
      rw [Field.readIndexes, List.forall_mem_cons] at hindexes
      exact all_listIndex hplain hindexes.1
        (by simp [all_var hplain refVar])
        (Model.all_dereference related (.var refVar) (all_var hplain refVar)
          hindexes.2)
  | .reverse related read, owner, name, hindexes => by
      rw [Field.readIndexes, List.forall_mem_cons] at hindexes
      exact all_listIndex hplain hindexes.1
        (by simp [all_var hplain refVar])
        (Model.all_dereference related (.var refVar) (all_var hplain refVar)
          hindexes.2)

theorem Field.all_projections :
    forall (fields : List (String × Field)) (owner : String),
      (forall read, read ∈ Field.readIndexesOf owner fields -> Q (.index read)) ->
        forall part, part ∈ partsOfEntries (Field.projections owner fields) ->
          Q part
  | [], owner, _ => by
      intro part hpart
      cases hpart
  | (name, field) :: rest, owner, hindexes => by
      rw [Field.readIndexesOf, List.forall_mem_append] at hindexes
      rw [Field.projections, partsOfEntries, List.forall_mem_append]
      exact ⟨all_guarded hplain _ (Field.all_query field owner name hindexes.1),
        Field.all_projections rest owner hindexes.2⟩

end

end

/-!
## Requests that read
-/

namespace Model

theorem readsOnly_dereference (model : Model) {reference : Expr}
    (h : reference.ReadsOnly) : (model.dereference reference).ReadsOnly :=
  all_dereference (fun _ => Expr.not_isWrite_of_isPlain) model reference h
    fun _ _ => rfl

theorem readsOnly_getRequest (model : Model) (id : String) :
    (model.getRequest id).ReadsOnly :=
  model.readsOnly_dereference
    (Expr.all_documentRef (fun _ => Expr.not_isWrite_of_isPlain) rfl)

theorem readsOnly_paginate (model : Model) (index : Option String)
    {terms : List Expr} (h : forall term, term ∈ terms -> term.ReadsOnly) :
    (model.paginate index terms).ReadsOnly := by
  have hplain : forall expr : Expr, expr.isPlain = true -> expr.isWrite = false :=
    fun _ => Expr.not_isWrite_of_isPlain
  have hitem : (model.dereference (.var Expr.refVar)).ReadsOnly :=
    model.readsOnly_dereference (Expr.all_var hplain Expr.refVar)
  cases index with
  | none => exact Expr.all_listCollection hplain rfl hitem
  | some name => exact Expr.all_listIndex hplain rfl h hitem

end Model
end DocumentMapper
