import DocumentMapper.Model.Request
import DocumentMapper.Proofs.Consistency
import DocumentMapper.Proofs.Reader

/-!
# Compiled reads

The query that a model compiles to means what the direct reader means: it leaves
the store as it is and answers what the reader reads, or fails as the reader does.

Each level of the query binds the same variables anew, so the induction is over
the model and holds of every scope.  All that a level needs of the scope around
it is what its own reference is worth.
-/

namespace DocumentMapper
namespace Action

variable {item other : Type} {store : Store}

/-- The errors that a fault of a reading shows in. -/
inductive Shows : ReadFault -> Error -> Prop where
  | missing : Shows .missing .instanceNotFound
  | malformed (fault : EvaluationFault) : Shows .malformed (.invalidExpression fault)
  | stopped : Shows .stopped .stopped

/-- The action leaves the store as it is and ends as a reading does. -/
def Reads (action : Action item) (store : Store) : Reading item -> Prop
  | .ok a => action store = .ok a store
  | .error fault => exists error, Shows fault error ∧ action store = .error error store

theorem reads_pure (a : item) : Reads (pure a) store (pure a) :=
  rfl

theorem reads_fail (fault : EvaluationFault) :
    Reads (Expr.fail fault : Action item) store (.error .malformed) :=
  ⟨_, .malformed fault, rfl⟩

theorem reads_bind {action : Action item} {next : item -> Action other}
    {outcome : Reading item} {continued : item -> Reading other}
    (hfirst : Reads action store outcome)
    (hnext : forall a, outcome = .ok a -> Reads (next a) store (continued a)) :
    Reads (action >>= next) store (outcome >>= continued) := by
  cases outcome with
  | ok a =>
      have hrun : (action >>= next) store = next a store := by
        simp [bind, EStateM.bind, show action store = .ok a store from hfirst]
      have hcontinued := hnext a rfl
      show Reads (action >>= next) store (continued a)
      cases hend : continued a with
      | ok b =>
          rw [hend] at hcontinued
          exact hrun.trans hcontinued
      | error fault =>
          rw [hend] at hcontinued
          rcases hcontinued with ⟨error, hshows, herror⟩
          exact ⟨error, hshows, hrun.trans herror⟩
  | error fault =>
      rcases hfirst with ⟨error, hshows, herror⟩
      exact ⟨error, hshows, by simp [bind, EStateM.bind, herror]⟩

theorem reads_mapM {action : item -> Action other}
    {outcome : item -> Reading other} {items : List item}
    (h : forall a, Reads (action a) store (outcome a)) :
    Reads (items.mapM action) store (items.mapM outcome) := by
  induction items with
  | nil =>
      exact reads_pure []
  | cons a rest ih =>
      rw [List.mapM_cons, List.mapM_cons]
      exact reads_bind (h a) fun b _ =>
        reads_bind ih fun bs _ => reads_pure (b :: bs)

theorem reads_getThe {next : Store -> Action other} {outcome : Reading other}
    (h : Reads (next store) store outcome) :
    Reads (getThe Store >>= next) store outcome := by
  cases outcome <;> exact h

theorem Reads.after_eq {action : Action item} {outcome : Reading item}
    (h : Reads action store outcome) : store.after action = store := by
  cases outcome with
  | ok a =>
      exact Store.after_of_ok h
  | error fault =>
      rcases h with ⟨error, _, herror⟩
      exact Store.after_of_error herror

theorem Reads.ok_iff {action : Action item} {outcome : Reading item} {a : item}
    (h : Reads action store outcome) :
    (exists left, action store = .ok a left) <-> outcome = .ok a := by
  cases outcome with
  | ok found =>
      simp [show action store = .ok found store from h]
  | error fault =>
      rcases h with ⟨error, _, herror⟩
      simp [herror]

theorem reads_demand {fault : ReadFault} {error : Error} (h : Shows fault error)
    (found : Option item) :
    Reads (Expr.demand found error) store (Reading.found fault found) := by
  cases found with
  | none => exact ⟨error, h, rfl⟩
  | some a => exact reads_pure a

end Action

/-!
# Parts of a compiled read
-/

namespace Expr

open DocumentMapper.Action

variable {clock : Clock} {scope : Scope} {store : Store}

theorem evaluate_literal (value : Value) :
    (literal value).evaluate clock scope = pure value :=
  rfl

theorem evaluate_literals (values : List Value) :
    (array (values.map literal)).evaluate clock scope = pure (.array values) := by
  have hall : evaluateAll clock (values.map literal) scope = pure values := by
    induction values with
    | nil =>
        rfl
    | cons value rest ih =>
        rw [List.map_cons, evaluateAll, evaluate_literal, ih]
        rfl
  rw [evaluate, hall]
  rfl

theorem evaluate_startTerm {start : Value}
    (h : Keyed.get? scope refVar = some start) :
    (array [var refVar]).evaluate clock scope = pure (.array [start]) := by
  simp [evaluate, evaluateAll, demand, h]

/-!
## Paths
-/

theorem asPath_keys (keys : List String) :
    asPath (.array (keys.map Value.string)) = pure (Value.keySteps keys) := by
  show (keys.map Value.string).mapM asStep = _
  induction keys with
  | nil =>
      rfl
  | cons name rest ih =>
      simp [ih, asStep, Value.keySteps]

theorem evaluate_containsPath {location : List String} {document : Document}
    (h : Keyed.get? scope documentVar = some (.document document)) :
    (containsPath (path location) (var documentVar)).evaluate clock scope =
      pure (.bool (document.at? location).isSome) := by
  simp [evaluate, path, asPath_keys, demand, h, Document.at?]

theorem evaluate_stored {location : List String} {document : Document}
    {value : Value} (h : Keyed.get? scope documentVar = some (.document document))
    (hvalue : document.at? location = some value) :
    (stored location).evaluate clock scope = pure value := by
  have hat : (Value.document document).at? (Value.keySteps location) =
      some value := hvalue
  simp [stored, evaluate, path, asPath_keys, demand, h, hat]

theorem evaluate_selectOr_null {location : List String} {document : Document}
    (h : Keyed.get? scope documentVar = some (.document document)) :
    (selectOr (path location) (var documentVar) null).evaluate clock scope =
      pure ((document.at? location).getD .null) := by
  have hat : (Value.document document).at? (Value.keySteps location) =
      document.at? location := rfl
  cases hvalue : document.at? location <;>
    simp [evaluate, path, null, asPath_keys, demand, h, hat, hvalue]

theorem evaluate_guarded {presence : List String} {document : Document}
    (h : Keyed.get? scope documentVar = some (.document document))
    (value : Expr) :
    (guarded presence value).evaluate clock scope =
      if (document.at? presence).isSome then value.evaluate clock scope
      else pure .null := by
  unfold guarded
  rw [evaluate, evaluate_containsPath h]
  cases (document.at? presence).isSome <;> rfl

/-!
## Lists
-/

theorem evaluate_bindRef {reference item : Expr} :
    (letIn [(refVar, reference)] item).evaluate clock scope = (do
      let start <- reference.evaluate clock scope
      item.evaluate clock ((refVar, start) :: scope)) := by
  simp [evaluate, evaluateBindings]

theorem asPath_last (number : Nat) :
    asPath (.int .long ((number : Int) - 1)) =
      if number = 0 then fail (.invalidStep (.int .long ((number : Int) - 1)))
      else pure [.position (number - 1)] := by
  cases number with
  | zero =>
      rfl
  | succ number =>
      have hnat : ((number + 1 : Nat) : Int) - 1 = number := by omega
      have hnonneg : ¬ ((number : Int) < 0) := by omega
      rw [hnat, if_neg (Nat.succ_ne_zero number)]
      simp [asPath, asStep, hnonneg]

theorem evaluate_lastValue {entry : Value}
    (h : Keyed.get? scope valuesVar = some entry) :
    lastValue.evaluate clock scope = (do
      let source <- asItems entry
      let steps <- asPath (.int .long ((source.items.length : Int) - 1))
      demand (entry.at? steps) (.invalidExpression (.nothingAt steps))) := by
  simp [lastValue, evaluate, evaluateAll, demand, h, difference,
    Value.integer?]

theorem reads_lastValue {entry : Value}
    (h : Keyed.get? scope valuesVar = some entry) :
    Reads (lastValue.evaluate clock scope) store
      (Reading.found .malformed entry.last?) := by
  rw [evaluate_lastValue h]
  cases entry with
  | array items =>
      rw [asItems, pure_bind, asPath_last]
      cases items with
      | nil =>
          exact reads_fail _
      | cons first rest =>
          have hlast : (Value.array (first :: rest)).at?
              [.position ((first :: rest).length - 1)] =
              (Value.array (first :: rest)).last? := by
            rw [Value.at?_cons, Value.last?, List.getLast?_eq_getElem?]
            rfl
          rw [if_neg (by simp), pure_bind, hlast]
          exact reads_demand (.malformed _) _
  | document entries =>
      rw [asItems]
      split
      · -- A page can be counted, but it has no positions.
        rw [pure_bind, asPath_last]
        split
        · exact reads_fail _
        · exact reads_fail _
      · exact reads_fail _
  | _ =>
      exact reads_fail _

theorem evaluate_listing {set reference item : Expr} :
    (listing set reference item).evaluate clock scope = (do
      let found <- evaluateSet clock set scope
      let items <- (found.take pageSize).mapM fun entry =>
        (letIn [(refVar, reference)] item).evaluate clock
          ((valuesVar, entry) :: scope)
      pure (Value.array items)) := by
  have hpage : forall items : List Value,
      (page items).at? (Value.keySteps ["data"]) = some (.array items) := by
    intro items
    rfl
  have hitems : forall items : List Value,
      asItems (page items) = pure { items := items, paged := true } := by
    intro items
    rfl
  have happly : forall (entry : Value),
      apply clock (lambda [valuesVar] (letIn [(refVar, reference)] item)) entry
          scope =
        (letIn [(refVar, reference)] item).evaluate clock
          ((valuesVar, entry) :: scope) := by
    intro entry
    rfl
  rw [listing, evaluate, evaluate, evaluate, path, evaluate]
  simp only [pure_bind, bind_assoc, asPath_keys, Option.getD_none, hitems, happly,
    Items.toValue, if_true, hpage, demand]

theorem reads_listing {set reference item : Expr}
    {entries : Reading (List Value)} {read : Value -> Reading Value}
    (hset : Reads (evaluateSet clock set scope) store entries)
    (hitem : forall entry,
      Reads
        ((letIn [(refVar, reference)] item).evaluate clock
          ((valuesVar, entry) :: scope))
        store (read entry)) :
    Reads ((listing set reference item).evaluate clock scope) store (do
      let found <- entries
      let items <- (found.take pageSize).mapM read
      pure (Value.array items)) := by
  rw [evaluate_listing]
  exact reads_bind hset fun found _ =>
    reads_bind (reads_mapM hitem) fun items _ => reads_pure (Value.array items)

theorem evaluateSet_documents (name : String) :
    evaluateSet clock (documents (collection name)) scope = (do
      let store <- getThe Store
      demand (store.references? name) .instanceNotFound) :=
  rfl

theorem evaluateSet_matching {name : String} {terms : Expr} {wanted : List Value}
    (hterms : terms.evaluate clock scope = pure (.array wanted)) :
    evaluateSet clock (matching (index name) terms) scope = (do
      let store <- getThe Store
      demand (store.matching? name wanted) (store.matchingError name)) := by
  have hrun : evaluateSet clock (matching (index name) terms) scope = (do
      let wanted <- terms.evaluate clock scope
      let store <- getThe Store
      demand (store.matching? name (termsOf wanted)) (store.matchingError name)) := by
    rfl
  rw [hrun, hterms, pure_bind]
  rfl

theorem reads_documents {name : String} :
    Reads (evaluateSet clock (documents (collection name)) scope) store
      (Reading.found .missing (store.references? name)) := by
  rw [evaluateSet_documents]
  exact reads_getThe (reads_demand .missing _)

theorem reads_matching {name : String} {terms : Expr} {wanted : List Value}
    (hterms : terms.evaluate clock scope = pure (.array wanted)) :
    Reads (evaluateSet clock (matching (index name) terms) scope) store
      (store.readMatching name wanted) := by
  rw [evaluateSet_matching hterms]
  refine reads_getThe (reads_demand ?_ _)
  unfold Store.matchingError
  split
  · exact .stopped
  · exact .missing

/-- An index is listed by reading what each of its entries ends in. -/
theorem reads_listIndex {name : String} {terms : List Expr} {wanted : List Value}
    {item : Expr} {read : Value -> Reading Value}
    (hterms : (array terms).evaluate clock scope = pure (.array wanted))
    (hitem : forall entry last,
      Reads (item.evaluate clock ((refVar, last) :: (valuesVar, entry) :: scope))
        store (read last)) :
    Reads ((listIndex name terms item).evaluate clock scope) store (do
      let found <- store.readMatching name wanted
      let items <- (found.take pageSize).mapM fun entry => do
        let last <- Reading.found .malformed entry.last?
        read last
      pure (Value.array items)) := by
  refine reads_listing (reads_matching hterms) fun entry => ?_
  rw [evaluate_bindRef]
  exact reads_bind (reads_lastValue rfl) fun last _ => hitem entry last

end Expr

/-!
# Instances

Of the scope only two variables are ever asked for: what the reference is worth
and which document it names.
-/

variable {clock : Clock} {store : Store}

theorem Value.entry?_eq_get? {entries : Document} {name : String}
    (hid : name ≠ "id") (hcollection : name ≠ "collection") :
    Value.entry? entries name = Keyed.get? entries name := by
  unfold Value.entry?
  cases (Keyed.get? entries Reference.key).bind Value.document? with
  | none => rfl
  | some target => simp [hid, hcollection]

namespace Document.Stamped

variable {own : Reference} {document : Document}

theorem at?_ref (h : Document.Stamped own document) :
    document.at? ["ref"] = some own.toValue := by
  have hentry : Value.entry? document "ref" = some own.toValue := by
    rw [Value.entry?_eq_get? (by decide) (by decide), h.ref]
  simp [Document.at?, Value.keySteps, Value.at?, Value.step?, hentry,
    Value.present?, Reference.toValue, Value.isNull]

theorem at?_identity (h : Document.Stamped own document) :
    document.at? ["ref", "id"] = some document.identity := by
  have hentry : Value.entry? document "ref" = some own.toValue := by
    rw [Value.entry?_eq_get? (by decide) (by decide), h.ref]
  have hinside : own.toValue.step? (.key "id") = some (.string own.id) := by
    rfl
  have hidentity : document.identity = .string own.id := by
    simp [Document.identity, h.ref, Reference.ofValue?_toValue]
  rw [hidentity]
  unfold Document.at? Value.keySteps
  rw [List.map_cons, List.map_cons, Value.at?_cons, Value.step?, hentry,
    Option.bind_some, Value.at?_cons, hinside]
  rfl

theorem at?_ts (h : Document.Stamped own document) :
    document.at? ["ts"] = some document.timestamp := by
  rcases h.ts with ⟨timestamp, hts⟩
  have hentry : Value.entry? document "ts" = some (.int .long timestamp) := by
    rw [Value.entry?_eq_get? (by decide) (by decide), hts]
  simp [Document.at?, Document.timestamp, Value.keySteps, Value.at?, Value.step?,
    hentry, hts, Value.present?, Value.isNull]

end Document.Stamped

theorem Expr.evaluateEntries_identity {scope : Scope} {own : Reference}
    {document : Document} (hstamped : Document.Stamped own document)
    (h : Keyed.get? scope Expr.documentVar = some (.document document))
    (rest : List (String × Expr)) :
    Expr.evaluateEntries clock
        (("id", Expr.guarded ["ref"] (Expr.stored ["ref", "id"])) ::
          ("ts", Expr.guarded ["ts"] (Expr.stored ["ts"])) :: rest)
        [] scope =
      Expr.evaluateEntries clock rest
        [("id", document.identity), ("ts", document.timestamp)] scope := by
  simp only [Expr.evaluateEntries, Expr.evaluate_guarded h, hstamped.at?_ref,
    hstamped.at?_ts, Option.isSome_some, if_true,
    Expr.evaluate_stored h hstamped.at?_identity,
    Expr.evaluate_stored h hstamped.at?_ts, pure_bind]
  rfl

theorem Field.evaluate_scalar {scope : Scope} {document : Document}
    (h : Keyed.get? scope Expr.documentVar = some (.document document))
    (owner name : String) (written read : Schema) (options : FieldOptions) :
    (Expr.guarded (((Field.scalar written read options).path? name).getD Expr.anywhere)
        ((Field.scalar written read options).query owner name)).evaluate clock scope =
      pure ((document.at? (dataPath name)).getD .null) := by
  rw [Expr.evaluate_guarded h, query, Expr.evaluate_selectOr_null h, path?,
    Option.getD_some]
  cases document.at? (dataPath name) <;> rfl

/-- The document that a reference is worth is loaded, and its entries are evaluated in
the scope of both. -/
theorem Model.evaluate_dereference {reference : Expr} {scope : Scope} {start : Value}
    (h : reference.evaluate clock scope = pure start) (model : Model) :
    (model.dereference reference).evaluate clock scope = (do
      let target <- Expr.demand (Reference.ofValue? start)
        (.invalidExpression (.notAReference start))
      let store <- getThe Store
      let document <- Expr.demand (store.find? target) .instanceNotFound
      let written <- Expr.evaluateEntries clock
        (("id", Expr.guarded ["ref"] (Expr.stored ["ref", "id"])) ::
          ("ts", Expr.guarded ["ts"] (Expr.stored ["ts"])) ::
          Field.projections model.name model.fields)
        [] ((Expr.documentVar, .document document) :: (Expr.refVar, start) :: scope)
      pure (.document written)) := by
  rcases model with ⟨name, fields, derived⟩
  rw [Model.dereference, Expr.evaluate, Expr.evaluateBindings, h]
  simp only [pure_bind, Expr.evaluateBindings, Expr.evaluate, Keyed.get?_cons,
    if_true, Expr.demand, Expr.asReference, bind_assoc]

mutual

theorem Model.reads_dereference (hstore : store.Consistent) :
    forall (model : Model) (reference : Expr) (scope : Scope) (start : Value),
      reference.evaluate clock scope = pure start ->
      Action.Reads ((model.dereference reference).evaluate clock scope) store
        (model.read store start)
  | { name, fields, .. }, reference, scope, start, hreference => by
      rw [Model.evaluate_dereference hreference, Model.read]
      refine Action.reads_bind (Action.reads_demand (.malformed _) _)
        fun target _ => ?_
      refine Action.reads_getThe ?_
      refine Action.reads_bind (Action.reads_demand .missing _)
        fun document hfound => ?_
      have hstored := Reading.found_eq_ok_iff.mp hfound
      rcases hstore.stamped_of_find? hstored with ⟨own, hstamped⟩
      have hanywhere : (document.at? Expr.anywhere).isSome = true :=
        Option.isSome_iff_exists.mpr ⟨_, hstamped.at?_ts⟩
      rw [Expr.evaluateEntries_identity hstamped rfl]
      have hfields := Field.reads_projections hstore fields name
        ((Expr.documentVar, .document document) ::
          (Expr.refVar, start) :: scope)
        start document [("id", document.identity), ("ts", document.timestamp)]
        rfl rfl hanywhere
      have hinstance := Action.reads_bind hfields fun written _ =>
        Action.reads_pure (Value.document written)
      have hfirst :
          Keyed.insert (Keyed.insert [] "id" document.identity) "ts"
              document.timestamp =
            [("id", document.identity), ("ts", document.timestamp)] := by
        rfl
      simpa [Keyed.ofList, hfirst] using hinstance

theorem Field.reads_query (hstore : store.Consistent) :
    forall (field : Field) (owner name : String) (scope : Scope) (start : Value)
      (document : Document),
      Keyed.get? scope Expr.refVar = some start ->
      Keyed.get? scope Expr.documentVar = some (.document document) ->
      (document.at? Expr.anywhere).isSome = true ->
      Action.Reads
        ((Expr.guarded ((field.path? name).getD Expr.anywhere)
          (field.query owner name)).evaluate clock scope)
        store (field.read store owner name start document)
  | .scalar written read options, owner, name, scope, start, document, hstart,
      hdocument, hanywhere => by
      rw [Field.evaluate_scalar hdocument, Field.read]
      exact Action.reads_pure _
  | .reference related isOptional _ _, owner, name, scope, start, document, hstart,
      hdocument, hanywhere => by
      rw [Expr.evaluate_guarded hdocument, Field.read]
      cases hheld : document.at? (dataPath name) with
      | none =>
          simp [Field.path?, hheld, Action.reads_pure]
      | some held =>
          have hfollowed := Model.reads_dereference hstore related
            (Expr.stored (dataPath name)) scope held
            (Expr.evaluate_stored hdocument hheld)
          cases isOptional with
          | false =>
              simpa [Field.path?, Field.query, hheld] using hfollowed
          | true =>
              simpa [Field.path?, Field.query, Expr.evaluate_guarded hdocument,
                hheld] using hfollowed
  | .manyToMany related _ join _, owner, name, scope, start, document, hstart,
      hdocument, hanywhere => by
      rw [Expr.evaluate_guarded hdocument, Field.read, Field.query]
      simp only [Field.path?, Option.getD_none, hanywhere, if_true]
      exact Expr.reads_listIndex (Expr.evaluate_startTerm hstart)
        fun entry last =>
          Model.reads_dereference hstore related (.var Expr.refVar) _ last rfl
  | .reverse related index, owner, name, scope, start, document, hstart,
      hdocument, hanywhere => by
      rw [Expr.evaluate_guarded hdocument, Field.read, Field.query]
      simp only [Field.path?, Option.getD_none, hanywhere, if_true]
      exact Expr.reads_listIndex (Expr.evaluate_startTerm hstart)
        fun entry last =>
          Model.reads_dereference hstore related (.var Expr.refVar) _ last rfl

theorem Field.reads_projections (hstore : store.Consistent) :
    forall (fields : List (String × Field)) (owner : String) (scope : Scope)
      (start : Value) (document : Document) (written : Document),
      Keyed.get? scope Expr.refVar = some start ->
      Keyed.get? scope Expr.documentVar = some (.document document) ->
      (document.at? Expr.anywhere).isSome = true ->
      Action.Reads
        (Expr.evaluateEntries clock (Field.projections owner fields) written scope)
        store (do
          let values <- Field.readAll store owner start document fields
          pure
            (values.foldl
              (fun written entry => Keyed.insert written entry.1 entry.2)
              written))
  | [], owner, scope, start, document, written, hstart, hdocument, hanywhere =>
      Action.reads_pure written
  | (name, field) :: rest, owner, scope, start, document, written, hstart,
      hdocument, hanywhere => by
      rw [Field.projections, Expr.evaluateEntries, Field.readAll]
      simp only [bind_assoc, pure_bind, List.foldl_cons]
      refine Action.reads_bind
        (Field.reads_query hstore field owner name scope start document hstart
          hdocument hanywhere)
        fun value _ => ?_
      exact Field.reads_projections hstore rest owner scope start document
        (Keyed.insert written name value) hstart hdocument hanywhere

end

theorem Model.reads_ofReference (hstore : store.Consistent) (model : Model)
    (reference : Reference) :
    Action.Reads ((model.dereference (.ofReference reference)).evaluate clock [])
      store (model.read store reference.toValue) :=
  Model.reads_dereference hstore model (.ofReference reference) [] _ rfl

theorem Model.reads_getRequest (hstore : store.Consistent) (model : Model)
    (id : String) :
    Action.Reads ((model.getRequest id).evaluate clock []) store
      (model.read store
        (Reference.toValue { collection := model.name, id := id })) :=
  Model.reads_dereference hstore model (model.refFromId id) [] _ rfl

/-!
## Lists of instances
-/

theorem Model.reads_paginate_collection (hstore : store.Consistent)
    (model : Model) (terms : List Expr) (scope : Scope) :
    Action.Reads ((model.paginate none terms).evaluate clock scope) store (do
      let found <- Reading.found .missing (store.references? model.name)
      let items <- (found.take Expr.pageSize).mapM (model.read store)
      pure (Value.array items)) := by
  refine Expr.reads_listing Expr.reads_documents fun entry => ?_
  rw [Expr.evaluate_bindRef]
  exact Model.reads_dereference hstore model (.var Expr.refVar) _ entry rfl

theorem Model.reads_paginate_index (hstore : store.Consistent) (model : Model)
    (index : String) (term : Value) (scope : Scope) :
    Action.Reads
      ((model.paginate (some index) [.literal term]).evaluate clock scope)
      store (store.readEntries index term (model.read store)) :=
  Expr.reads_listIndex rfl fun _ last =>
    Model.reads_dereference hstore model (.var Expr.refVar) _ last rfl

/-!
# Main statement
-/

theorem Model.dereference_eq_read {store : Store} (hreach : store.Reachable)
    (model : Model) (clock : Clock) (scope : Scope) (start : Value) :
    store.after ((model.dereference (.literal start)).evaluate clock scope) =
        store ∧
      forall value,
        (exists left,
          (model.dereference (.literal start)).evaluate clock scope store =
            .ok value left) <->
        model.read store start = .ok value := by
  have hreads : Action.Reads
      ((model.dereference (.literal start)).evaluate clock scope) store
      (model.read store start) :=
    Model.reads_dereference hreach.consistent model (.literal start) scope start
      (Expr.evaluate_literal start)
  exact ⟨hreads.after_eq, fun value => hreads.ok_iff⟩

/-!
The statement at one store: an author with one book, which is read through the
reverse side of the book's author and leads back to the author.
-/

def authorModel : Model :=
  { name := "Author"
    fields := [("name", .scalar .string .string FieldOptions.plain)]
    derived := false }

def bookModel : Model :=
  { name := "Book"
    fields :=
      [("title", .scalar .string .string FieldOptions.plain),
        ("author", .reference authorModel false
          { Relation.oneWay with reverse := some "books" } FieldOptions.plain)]
    derived := false }

def authorWithBooks : Model :=
  { authorModel with
    fields := authorModel.fields ++ [("books", .reverse bookModel "books_by_author")]
    derived := true }

def oneBook : Store :=
  Store.empty.afterAll (fun _ => 0)
    [({ models := [authorModel, bookModel] } : Deployment).construct,
    ({ models := [authorModel, bookModel] } : Deployment).index,
    .create (.collection "Author")
      (Model.dataParams [("name", .string "Ann")]),
    .create (.collection "Book")
      (Model.dataParams
        [("title", .string "Ox"),
          ("author", (Store.numbered "Author" 1).toValue)])]

theorem authorWithBooks_dereference_oneBook :
    oneBook.Reachable ∧
      exists left,
        (authorWithBooks.dereference
            (.literal (Store.numbered "Author" 1).toValue)).evaluate
            (fun _ => 0) [] oneBook =
          .ok
            (.document
              [("id", .string "1"), ("ts", .int .long 4),
                ("name", .string "Ann"),
                ("books",
                  .array
                    [.document
                      [("id", .string "2"), ("ts", .int .long 5),
                        ("title", .string "Ox"),
                        ("author",
                          .document
                            [("id", .string "1"), ("ts", .int .long 4),
                              ("name", .string "Ann")])]])])
            left := by
  have hreach : oneBook.Reachable := Store.LeadsTo.start.afterAll _ _
  have hread := Model.dereference_eq_read hreach authorWithBooks (fun _ => 0) []
    (Store.numbered "Author" 1).toValue
  refine ⟨hreach, (hread.2 _).mpr ?_⟩
  with_unfolding_all rfl

end DocumentMapper
