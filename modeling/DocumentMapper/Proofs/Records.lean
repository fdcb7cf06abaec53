import DocumentMapper.Proofs.Preservation

/-!
# Records of writes

An evaluation that keeps a record of the documents that it creates and of what it deletes
does what evaluation does.  So each query has a record of its own, and its writes lead from
the store before it to the store after it.

An action is taken together with its record and with what the record stands for, so none is
ever built that leaves out one of its writes.
-/

namespace DocumentMapper

inductive Event where
  | created (collection : String) (number : Nat)
  | deleted (target : Reference)
deriving DecidableEq

namespace Store

/-!
## Writes
-/

inductive Write where
  | createCollection (definition : CollectionDefinition)
  | createIndex (definition : IndexDefinition)
  | createDocument (collection : String) (data : Document)
  | updateDocument (reference : Reference) (patch : Document)
  | delete (reference : Reference)

namespace Write

def run (clock : Clock) : Write -> Action Document
  | createCollection definition => Store.createCollection clock definition
  | createIndex definition => Store.createIndex clock definition
  | createDocument collection data => Store.createDocument clock collection data
  | updateDocument reference patch => Store.updateDocument clock reference patch
  | delete reference => Store.delete reference

/-- What goes on record if the write succeeds. -/
def intent (store : Store) : Write -> List Event
  | createDocument collection _ => [.created collection (store.lastNumber + 1)]
  | delete reference => [.deleted reference]
  | _ => []

def events (clock : Clock) (store : Store) (write : Write) : List Event :=
  match write.run clock store with
  | .ok _ _ => write.intent store
  | .error _ _ => []

end Write

/-- Writes lead from one store to another, and this is their record. -/
inductive History (start : Store) : List Event -> Store -> Prop where
  | start : History start [] start
  | write {log : List Event} {store : Store} (clock : Clock) (write : Write)
      (hrun : History start log store) :
      History start (log ++ write.events clock store) (store.after (write.run clock))

theorem History.trans {start between later : Store} {log added : List Event}
    (hfirst : History start log between) (hsecond : History between added later) :
    History start (log ++ added) later := by
  induction hsecond with
  | start =>
      rw [List.append_nil]
      exact hfirst
  | write clock write _ ih =>
      rw [<- List.append_assoc]
      exact .write clock write ih

end Store

/-!
## Recorded actions
-/

/-- An action with its record. -/
structure Recorded (item : Type) where
  action : Action item
  record : Store -> List Event
  history : forall store : Store, store.History (record store) (store.after action)

namespace Recorded

variable {item other : Type}

/-- An action that only reads, which has nothing to record. -/
def reading {action : Action item} (h : action.Steady) : Recorded item where
  action := action
  record := fun _ => []
  history store := by
    rw [h store]
    exact .start

def perform (clock : Clock) (write : Store.Write) : Recorded Document where
  action := write.run clock
  record := write.events clock
  history _ := .write clock write .start

def andThen (first : Recorded item) (next : item -> Recorded other) : Recorded other where
  action := first.action >>= fun a => (next a).action
  record store :=
    match first.action store with
    | .ok a left => first.record store ++ (next a).record left
    | .error _ _ => first.record store
  history store := by
    have hfirst := first.history store
    rw [Action.after_bind]
    cases hrun : first.action store with
    | ok a left =>
        rw [Store.after_of_ok hrun] at hfirst
        exact hfirst.trans ((next a).history left)
    | error error left =>
        rw [Store.after_of_error hrun] at hfirst
        exact hfirst

instance : Monad Recorded where
  pure a := reading (Action.steady_pure a)
  bind := andThen

@[simp] theorem action_pure (a : item) : (pure a : Recorded item).action = pure a :=
  rfl

@[simp] theorem action_reading {action : Action item} (h : action.Steady) :
    (reading h).action = action :=
  rfl

@[simp] theorem action_perform (clock : Clock) (write : Store.Write) :
    (perform clock write).action = write.run clock :=
  rfl

@[simp] theorem action_bind (first : Recorded item) (next : item -> Recorded other) :
    (first >>= next).action = first.action >>= fun a => (next a).action :=
  rfl

@[simp] theorem action_mapM' (f : item -> Recorded other) (items : List item) :
    (items.mapM' f).action = items.mapM fun a => (f a).action := by
  induction items with
  | nil =>
      rfl
  | cons a rest ih =>
      simp only [List.mapM'_cons, List.mapM_cons, action_bind, action_pure, ih]

end Recorded

/-!
## Recorded evaluation
-/

namespace Expr

open Recorded

mutual

def recorded (clock : Clock) : Expr -> Scope -> Recorded Value
  | literal value, _ => pure value
  | array items, scope => do
      let values <- recordedAll clock items scope
      pure (.array values)
  | object entries, scope => do
      let written <- recordedEntries clock entries [] scope
      pure (.document written)
  | var name, scope =>
      reading (steady_demand (Keyed.get? scope name)
        (.invalidExpression (.unboundVariable name)))
  | letIn bindings body, scope => do
      let extended <- recordedBindings clock bindings scope
      recorded clock body extended
  | lambda _ _, _ => reading (steady_fail .loneLambda)
  | select path source, scope => do
      let steps <- reading (steady_asPath (<- recorded clock path scope))
      let value <- recorded clock source scope
      reading (steady_demand (value.at? steps) (.invalidExpression (.nothingAt steps)))
  | selectOr path source fallback, scope => do
      let steps <- reading (steady_asPath (<- recorded clock path scope))
      let value <- recorded clock source scope
      match value.at? steps with
      | some found => pure found
      | none => recorded clock fallback scope
  | containsPath path source, scope => do
      let steps <- reading (steady_asPath (<- recorded clock path scope))
      let value <- recorded clock source scope
      pure (.bool (value.at? steps).isSome)
  | ifThenElse condition consequence alternative, scope => do
      match (<- recorded clock condition scope) with
      | .bool true => recorded clock consequence scope
      | .bool false => recorded clock alternative scope
      | other => reading (steady_fail (.notACondition other))
  | get reference, scope => do
      let target <- reading (steady_asReference (<- recorded clock reference scope))
      let store <- reading Action.steady_getThe
      let document <- reading (steady_demand (store.find? target) .instanceNotFound)
      pure (.document document)
  | ref home id, scope => do
      let name <- reading (steady_asCollection (<- recorded clock home scope))
      let named <- reading (steady_asId (<- recorded clock id scope))
      pure (Reference.toValue { collection := name, id := named })
  | collection name, _ => pure (Reference.ofCollection name).toValue
  | index name, _ => pure (Reference.ofIndex name).toValue
  | documents _, _ => reading (steady_fail .loneSet)
  | matching _ _, _ => reading (steady_fail .loneSet)
  | paginate set size, scope => do
      let entries <- recordedSet clock set scope
      pure (page (entries.take (size.getD pageSize)))
  | map source function, scope => do
      let source <- reading (steady_asItems (<- recorded clock source scope))
      let mapped <- source.items.mapM' fun item => recordedApply clock function item scope
      pure { source with items := mapped : Items }.toValue
  | count source, scope => do
      let source <- reading (steady_asItems (<- recorded clock source scope))
      pure (.int .long source.items.length)
  | subtract operands, scope => do
      let values <- recordedAll clock operands scope
      reading (steady_difference values)
  | create home params, scope => do
      let name <- reading (steady_asCollection (<- recorded clock home scope))
      let data <- reading (steady_asData (<- recorded clock params scope))
      let document <- perform clock (.createDocument name data)
      pure (.document document)
  | update reference params, scope => do
      let target <- reading (steady_asReference (<- recorded clock reference scope))
      let patch <- reading (steady_asData (<- recorded clock params scope))
      let document <- perform clock (.updateDocument target patch)
      pure (.document document)
  | delete reference, scope => do
      let target <- reading (steady_asReference (<- recorded clock reference scope))
      let document <- perform clock (.delete target)
      pure (.document document)
  | createCollection definition, _ => do
      let document <- perform clock (.createCollection definition)
      pure (.document document)
  | createIndex definition, _ => do
      let document <- perform clock (.createIndex definition)
      pure (.document document)
  | batch statements, scope => recordedBatch clock statements .null scope

def recordedApply (clock : Clock) : Expr -> Value -> Scope -> Recorded Value
  | lambda parameters body, argument, scope => do
      let extended <- reading (steady_bindParameters parameters argument scope)
      recorded clock body extended
  | _, _, _ => reading (steady_fail .notALambda)

def recordedSet (clock : Clock) : Expr -> Scope -> Recorded (List Value)
  | documents home, scope => do
      let name <- reading (steady_asCollection (<- recorded clock home scope))
      let store <- reading Action.steady_getThe
      reading (steady_demand (store.references? name) .instanceNotFound)
  | matching indexed terms, scope => do
      let name <- reading (steady_asIndex (<- recorded clock indexed scope))
      let wanted <- recorded clock terms scope
      let store <- reading Action.steady_getThe
      reading (steady_demand (store.matching? name (termsOf wanted))
        (store.matchingError name))
  | other, _ => reading (steady_fail (.notASet other))

def recordedAll (clock : Clock) : List Expr -> Scope -> Recorded (List Value)
  | [], _ => pure []
  | expr :: rest, scope => do
      let value <- recorded clock expr scope
      let values <- recordedAll clock rest scope
      pure (value :: values)

def recordedEntries (clock : Clock) :
    List (String × Expr) -> Document -> Scope -> Recorded Document
  | [], written, _ => pure written
  | (key, expr) :: rest, written, scope => do
      let value <- recorded clock expr scope
      recordedEntries clock rest (Keyed.insert written key value) scope

def recordedBindings (clock : Clock) :
    List (String × Expr) -> Scope -> Recorded Scope
  | [], scope => pure scope
  | (name, expr) :: rest, scope => do
      let value <- recorded clock expr scope
      recordedBindings clock rest ((name, value) :: scope)

def recordedBatch (clock : Clock) : List Expr -> Value -> Scope -> Recorded Value
  | [], last, _ => pure last
  | expr :: rest, _, scope => do
      let value <- recorded clock expr scope
      recordedBatch clock rest value scope

end

/-!
The recorded action is the evaluation.
-/

variable {clock : Clock}

mutual

theorem action_recorded : forall (expr : Expr) (scope : Scope),
    (recorded clock expr scope).action = evaluate clock expr scope
  | literal _, scope => rfl
  | array items, scope => by
      simp [recorded, evaluate, action_recordedAll items scope]
  | object entries, scope => by
      simp [recorded, evaluate, action_recordedEntries entries [] scope]
  | var _, scope => rfl
  | letIn bindings body, scope => by
      simp [recorded, evaluate, action_recordedBindings bindings scope,
        action_recorded body]
  | lambda _ _, scope => rfl
  | select path source, scope => by
      simp [recorded, evaluate, action_recorded path scope, action_recorded source scope]
  | selectOr path source fallback, scope => by
      simp only [recorded, evaluate, action_bind, action_recorded path scope,
        action_recorded source scope, action_reading]
      congr 1
      funext found
      congr 1
      funext steps
      congr 1
      funext value
      cases value.at? steps with
      | none => exact action_recorded fallback scope
      | some inner => rfl
  | containsPath path source, scope => by
      simp [recorded, evaluate, action_recorded path scope, action_recorded source scope]
  | ifThenElse condition consequence alternative, scope => by
      simp only [recorded, evaluate, action_bind, action_recorded condition scope]
      congr 1
      funext value
      cases value with
      | bool holds =>
          cases holds with
          | true => exact action_recorded consequence scope
          | false => exact action_recorded alternative scope
      | _ =>
          rfl
  | get reference, scope => by
      simp [recorded, evaluate, action_recorded reference scope]
  | ref home id, scope => by
      simp [recorded, evaluate, action_recorded home scope, action_recorded id scope]
  | collection _, scope => rfl
  | index _, scope => rfl
  | documents _, scope => rfl
  | matching _ _, scope => rfl
  | paginate set size, scope => by
      simp [recorded, evaluate, action_recordedSet set scope]
  | map source function, scope => by
      simp [recorded, evaluate, action_recorded source scope,
        action_recordedApply function _ scope]
  | count source, scope => by
      simp [recorded, evaluate, action_recorded source scope]
  | subtract operands, scope => by
      simp [recorded, evaluate, action_recordedAll operands scope]
  | create home params, scope => by
      simp [recorded, evaluate, action_recorded home scope, action_recorded params scope,
        Store.Write.run]
  | update reference params, scope => by
      simp [recorded, evaluate, action_recorded reference scope,
        action_recorded params scope, Store.Write.run]
  | delete reference, scope => by
      simp [recorded, evaluate, action_recorded reference scope, Store.Write.run]
  | createCollection definition, scope => rfl
  | createIndex definition, scope => rfl
  | batch statements, scope => by
      rw [recorded, evaluate, action_recordedBatch statements .null scope]

theorem action_recordedApply : forall (function : Expr) (argument : Value) (scope : Scope),
    (recordedApply clock function argument scope).action =
      apply clock function argument scope
  | function, argument, scope => by
      cases function with
      | lambda parameters body =>
          simp [recordedApply, apply, action_recorded body]
      | _ =>
          rfl

theorem action_recordedSet : forall (set : Expr) (scope : Scope),
    (recordedSet clock set scope).action = evaluateSet clock set scope
  | set, scope => by
      cases set with
      | documents home =>
          simp [recordedSet, evaluateSet, action_recorded home scope]
      | matching indexed terms =>
          simp [recordedSet, evaluateSet, action_recorded indexed scope,
            action_recorded terms scope]
      | _ =>
          rfl

theorem action_recordedAll : forall (items : List Expr) (scope : Scope),
    (recordedAll clock items scope).action = evaluateAll clock items scope
  | [], scope => rfl
  | expr :: rest, scope => by
      simp [recordedAll, evaluateAll, action_recorded expr scope,
        action_recordedAll rest scope]

theorem action_recordedEntries :
    forall (entries : List (String × Expr)) (written : Document) (scope : Scope),
      (recordedEntries clock entries written scope).action =
        evaluateEntries clock entries written scope
  | [], written, scope => rfl
  | (key, expr) :: rest, written, scope => by
      simp [recordedEntries, evaluateEntries, action_recorded expr scope,
        action_recordedEntries rest _ scope]

theorem action_recordedBindings : forall (bindings : List (String × Expr)) (scope : Scope),
    (recordedBindings clock bindings scope).action = evaluateBindings clock bindings scope
  | [], scope => rfl
  | (name, expr) :: rest, scope => by
      simp [recordedBindings, evaluateBindings, action_recorded expr scope,
        action_recordedBindings rest]

theorem action_recordedBatch :
    forall (statements : List Expr) (last : Value) (scope : Scope),
      (recordedBatch clock statements last scope).action =
        evaluateBatch clock statements last scope
  | [], last, scope => rfl
  | expr :: rest, _, scope => by
      simp [recordedBatch, evaluateBatch, action_recorded expr scope,
        action_recordedBatch rest _ scope]

end

/-- The record of a query.  One that fails takes back what it wrote. -/
def events (clock : Clock) (expr : Expr) (store : Store) : List Event :=
  match Store.query clock expr store with
  | .ok _ _ => (expr.recorded clock []).record store
  | .error _ _ => []

end Expr

theorem Store.history_query (clock : Clock) (expr : Expr) (store : Store) :
    store.History (expr.events clock store) (store.after (Store.query clock expr)) := by
  have hhistory := (expr.recorded clock []).history store
  rw [Expr.action_recorded] at hhistory
  unfold Expr.events
  cases hrun : expr.evaluate clock [] store with
  | ok value left =>
      have hquery : Store.query clock expr store = .ok value left := by
        rw [Store.query, hrun]
      rw [Store.after_of_ok hrun] at hhistory
      rw [Store.after_of_ok hquery, hquery]
      exact hhistory
  | error error left =>
      have hquery : Store.query clock expr store = .error error store := by
        rw [Store.query, hrun]
      rw [Store.after_of_error hquery, hquery]
      exact .start

end DocumentMapper
