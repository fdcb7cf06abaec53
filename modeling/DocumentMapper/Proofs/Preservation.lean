import DocumentMapper.Client.Memory
import DocumentMapper.Proofs.Parts

/-!
# Preservation

A property of stores that the five writes keep is kept by every expression,
whether its evaluation answers or fails, and so it holds of every store that
queries lead to.

An action that only reads leaves the store as it is; all the operators that read
a value as what they want are of this kind.
-/

namespace DocumentMapper

/-- The store that an action leaves, whether it answers or fails. -/
def Store.after {item : Type} (store : Store) (action : Action item) : Store :=
  match action store with
  | .ok _ left => left
  | .error _ left => left

theorem Store.after_of_ok {item : Type} {action : Action item}
    {store left : Store} {answer : item} (h : action store = .ok answer left) :
    store.after action = left := by
  simp [Store.after, h]

theorem Store.after_of_error {item : Type} {action : Action item}
    {store left : Store} {error : Error} (h : action store = .error error left) :
    store.after action = left := by
  simp [Store.after, h]

namespace Action

variable {item other : Type} {P : Store -> Prop}

def Keeps (P : Store -> Prop) (action : Action item) : Prop :=
  forall store, P store -> P (store.after action)

def Steady (action : Action item) : Prop :=
  forall store : Store, store.after action = store

theorem Steady.keeps {action : Action item} (h : Steady action) :
    Keeps P action := by
  intro store hstore
  rw [h store]
  exact hstore

theorem steady_pure (a : item) : Steady (pure a : Action item) := by
  intro store
  rfl

theorem steady_throw (error : Error) : Steady (throw error : Action item) := by
  intro store
  rfl

theorem steady_getThe : Steady (getThe Store : Action Store) := by
  intro store
  rfl

/-!
## Sequences

What a sequence leaves is what its second part leaves, unless the first fails.
-/

theorem after_bind (action : Action item) (next : item -> Action other)
    (store : Store) :
    store.after (action >>= next) =
      match action store with
      | .ok a left => left.after (next a)
      | .error _ left => left := by
  cases h : action store with
  | ok a left =>
      simp [Store.after, bind, EStateM.bind, h]
  | error error left =>
      simp [Store.after, bind, EStateM.bind, h]

theorem keeps_bind {action : Action item} {next : item -> Action other}
    (hfirst : Keeps P action) (hnext : forall a, Keeps P (next a)) :
    Keeps P (action >>= next) := by
  intro store hstore
  have hleft := hfirst store hstore
  rw [after_bind]
  cases h : action store with
  | ok a left =>
      rw [Store.after_of_ok h] at hleft
      exact hnext a left hleft
  | error error left =>
      rw [Store.after_of_error h] at hleft
      exact hleft

theorem steady_iff_keeps {action : Action item} :
    Steady action <-> forall store, Keeps (fun left => left = store) action := by
  constructor
  · intro h store left hleft
    rw [h left]
    exact hleft
  · intro h store
    exact h store store rfl

theorem steady_bind {action : Action item} {next : item -> Action other}
    (hfirst : Steady action) (hnext : forall a, Steady (next a)) :
    Steady (action >>= next) := by
  apply steady_iff_keeps.mpr
  intro store
  exact keeps_bind hfirst.keeps fun a => (hnext a).keeps

theorem keeps_mapM {f : item -> Action other} {items : List item}
    (h : forall a, Keeps P (f a)) : Keeps P (items.mapM f) := by
  induction items with
  | nil =>
      exact (steady_pure []).keeps
  | cons a rest ih =>
      rw [List.mapM_cons]
      exact keeps_bind (h a) fun b =>
        keeps_bind ih fun bs => (steady_pure (b :: bs)).keeps

theorem steady_mapM {f : item -> Action other} {items : List item}
    (h : forall a, Steady (f a)) : Steady (items.mapM f) := by
  apply steady_iff_keeps.mpr
  intro store
  exact keeps_mapM fun a => (h a).keeps

end Action

/-!
# Operators that only read
-/

namespace Expr

open DocumentMapper.Action

theorem steady_fail {item : Type} (fault : EvaluationFault) :
    Steady (fail fault : Action item) :=
  steady_throw (.invalidExpression fault)

theorem steady_demand {item : Type} (found : Option item) (error : Error) :
    Steady (demand found error) := by
  cases found with
  | none => exact steady_throw error
  | some a => exact steady_pure a

theorem steady_asReference (value : Value) : Steady (asReference value) :=
  steady_demand (Reference.ofValue? value) (.invalidExpression (.notAReference value))

theorem steady_asCollection (value : Value) : Steady (asCollection value) := by
  refine steady_bind (steady_asReference value) fun reference => ?_
  split
  · exact steady_pure reference.id
  · exact steady_fail (.notACollection reference)

theorem steady_asIndex (value : Value) : Steady (asIndex value) := by
  refine steady_bind (steady_asReference value) fun reference => ?_
  split
  · exact steady_pure reference.id
  · exact steady_fail (.notAnIndex reference)

theorem steady_asDocument (value : Value) : Steady (asDocument value) := by
  unfold asDocument
  split
  · exact steady_pure _
  · exact steady_pure []
  · exact steady_fail _

theorem steady_asData (params : Value) : Steady (asData params) := by
  refine steady_bind (steady_asDocument params) fun entries => ?_
  split
  · exact steady_asDocument _
  · exact steady_pure []

theorem steady_asId (value : Value) : Steady (asId value) := by
  unfold asId
  split
  · exact steady_pure _
  · exact steady_pure _
  · exact steady_fail _

theorem steady_asStep (value : Value) : Steady (asStep value) := by
  unfold asStep
  split
  · exact steady_pure _
  · split
    · exact steady_fail _
    · exact steady_pure _
  · exact steady_fail _

theorem steady_asPath (value : Value) : Steady (asPath value) := by
  unfold asPath
  split
  · exact steady_mapM steady_asStep
  · exact steady_bind (steady_asStep value) fun step => steady_pure [step]

theorem steady_asItems (value : Value) : Steady (asItems value) := by
  unfold asItems
  split
  · exact steady_pure _
  · split
    · exact steady_pure _
    · exact steady_fail .notAPage
  · exact steady_fail _

theorem steady_difference (operands : List Value) :
    Steady (difference operands) := by
  unfold difference
  split
  · exact steady_pure _
  · exact steady_pure _
  · exact steady_fail .noOperands
  · exact steady_fail .notNumbers

theorem steady_bindParameters (parameters : List String) (argument : Value)
    (scope : Scope) : Steady (bindParameters parameters argument scope) := by
  unfold bindParameters
  split
  · exact steady_pure _
  · exact steady_pure _
  · exact steady_fail _

end Expr

/-!
# Expressions

The five writes are the only steps of an evaluation that change the store, so
the induction is on the expression and each write is one case of it.  What is asked
of the writes is asked only of those among the parts of the expression.
-/

structure Store.KeptByWrites (clock : Clock) (P : Store -> Prop) : Prop where
  createCollection : forall definition,
    Action.Keeps P (Store.createCollection clock definition)
  createIndex : forall definition,
    Action.Keeps P (Store.createIndex clock definition)
  createDocument : forall collection data,
    Action.Keeps P (Store.createDocument clock collection data)
  updateDocument : forall reference patch,
    Action.Keeps P (Store.updateDocument clock reference patch)
  delete : forall reference, Action.Keeps P (Store.delete reference)

namespace Expr

open DocumentMapper.Action

/-- The write that an expression asks for, if it asks for one, keeps a property of
the store. -/
def WriteKeeps (clock : Clock) (P : Store -> Prop) : Expr -> Prop
  | create _ _ =>
      forall collection data, Keeps P (Store.createDocument clock collection data)
  | update _ _ =>
      forall reference patch, Keeps P (Store.updateDocument clock reference patch)
  | delete _ => forall reference, Keeps P (Store.delete reference)
  | createCollection definition =>
      Keeps P (Store.createCollection clock definition)
  | createIndex definition => Keeps P (Store.createIndex clock definition)
  | _ => True

variable {clock : Clock} {P : Store -> Prop}

theorem writeKeeps_of_kept (h : Store.KeptByWrites clock P) (expr : Expr) :
    expr.WriteKeeps clock P := by
  cases expr with
  | create home params => exact h.createDocument
  | update reference params => exact h.updateDocument
  | delete reference => exact h.delete
  | createCollection definition => exact h.createCollection definition
  | createIndex definition => exact h.createIndex definition
  | _ => trivial

theorem writeKeeps_of_not_isWrite {expr : Expr} (h : expr.isWrite = false) :
    expr.WriteKeeps clock P := by
  cases expr <;> trivial

mutual

theorem parts_keep :
    forall (expr : Expr) (scope : Scope),
      (forall part, part ∈ expr.parts -> part.WriteKeeps clock P) ->
        Keeps P (expr.evaluate clock scope)
  | literal value, scope, _ => (steady_pure value).keeps
  | array items, scope, h => by
      simp only [parts, List.forall_mem_cons] at h
      exact keeps_bind (partsOfAll_keep items scope h.2) fun values =>
        (steady_pure (Value.array values)).keeps
  | object entries, scope, h => by
      simp only [parts, List.forall_mem_cons] at h
      exact keeps_bind (partsOfEntries_keep entries [] scope h.2) fun written =>
        (steady_pure (Value.document written)).keeps
  | var name, scope, _ => (steady_demand _ _).keeps
  | letIn bindings body, scope, h => by
      simp only [parts, List.forall_mem_cons, List.forall_mem_append] at h
      exact keeps_bind (partsOfBindings_keep bindings scope h.2.1) fun extended =>
        parts_keep body extended h.2.2
  | lambda _ _, scope, _ => (steady_fail .loneLambda).keeps
  | select path source, scope, h => by
      simp only [parts, List.forall_mem_cons, List.forall_mem_append] at h
      refine keeps_bind (parts_keep path scope h.2.1) fun found => ?_
      refine keeps_bind (steady_asPath found).keeps fun steps => ?_
      refine keeps_bind (parts_keep source scope h.2.2) fun value => ?_
      exact (steady_demand _ _).keeps
  | selectOr path source fallback, scope, h => by
      simp only [parts, List.forall_mem_cons, List.forall_mem_append] at h
      refine keeps_bind (parts_keep path scope h.2.1) fun found => ?_
      refine keeps_bind (steady_asPath found).keeps fun steps => ?_
      refine keeps_bind (parts_keep source scope h.2.2.1) fun value => ?_
      cases value.at? steps with
      | none => exact parts_keep fallback scope h.2.2.2
      | some inner => exact (steady_pure inner).keeps
  | containsPath path source, scope, h => by
      simp only [parts, List.forall_mem_cons, List.forall_mem_append] at h
      refine keeps_bind (parts_keep path scope h.2.1) fun found => ?_
      refine keeps_bind (steady_asPath found).keeps fun steps => ?_
      refine keeps_bind (parts_keep source scope h.2.2) fun value => ?_
      exact (steady_pure _).keeps
  | ifThenElse condition consequence alternative, scope, h => by
      simp only [parts, List.forall_mem_cons, List.forall_mem_append] at h
      refine keeps_bind (parts_keep condition scope h.2.1) fun value => ?_
      split
      · exact parts_keep consequence scope h.2.2.1
      · exact parts_keep alternative scope h.2.2.2
      · exact (steady_fail _).keeps
  | get reference, scope, h => by
      simp only [parts, List.forall_mem_cons] at h
      refine keeps_bind (parts_keep reference scope h.2) fun value => ?_
      refine keeps_bind (steady_asReference value).keeps fun target => ?_
      refine keeps_bind steady_getThe.keeps fun store => ?_
      exact keeps_bind (steady_demand _ _).keeps fun document =>
        (steady_pure (Value.document document)).keeps
  | ref home id, scope, h => by
      simp only [parts, List.forall_mem_cons, List.forall_mem_append] at h
      refine keeps_bind (parts_keep home scope h.2.1) fun value => ?_
      refine keeps_bind (steady_asCollection value).keeps fun name => ?_
      refine keeps_bind (parts_keep id scope h.2.2) fun value => ?_
      exact keeps_bind (steady_asId value).keeps fun named =>
        (steady_pure _).keeps
  | collection name, scope, _ => (steady_pure _).keeps
  | index name, scope, _ => (steady_pure _).keeps
  | documents _, scope, _ => (steady_fail .loneSet).keeps
  | matching _ _, scope, _ => (steady_fail .loneSet).keeps
  | paginate set size, scope, h => by
      simp only [parts, List.forall_mem_cons] at h
      exact keeps_bind (partsOfSet_keep set scope h.2) fun entries =>
        (steady_pure _).keeps
  | map source function, scope, h => by
      simp only [parts, List.forall_mem_cons, List.forall_mem_append] at h
      refine keeps_bind (parts_keep source scope h.2.1) fun value => ?_
      refine keeps_bind (steady_asItems value).keeps fun source => ?_
      refine keeps_bind ?_ fun mapped => (steady_pure _).keeps
      exact keeps_mapM fun item => partsOfFunction_keep function item scope h.2.2
  | count source, scope, h => by
      simp only [parts, List.forall_mem_cons] at h
      refine keeps_bind (parts_keep source scope h.2) fun value => ?_
      exact keeps_bind (steady_asItems value).keeps fun source =>
        (steady_pure _).keeps
  | subtract operands, scope, h => by
      simp only [parts, List.forall_mem_cons] at h
      exact keeps_bind (partsOfAll_keep operands scope h.2) fun values =>
        (steady_difference values).keeps
  | create home params, scope, h => by
      simp only [parts, List.forall_mem_cons, List.forall_mem_append] at h
      refine keeps_bind (parts_keep home scope h.2.1) fun value => ?_
      refine keeps_bind (steady_asCollection value).keeps fun name => ?_
      refine keeps_bind (parts_keep params scope h.2.2) fun value => ?_
      refine keeps_bind (steady_asData value).keeps fun data => ?_
      exact keeps_bind (h.1 name data) fun document =>
        (steady_pure (Value.document document)).keeps
  | update reference params, scope, h => by
      simp only [parts, List.forall_mem_cons, List.forall_mem_append] at h
      refine keeps_bind (parts_keep reference scope h.2.1) fun value => ?_
      refine keeps_bind (steady_asReference value).keeps fun target => ?_
      refine keeps_bind (parts_keep params scope h.2.2) fun value => ?_
      refine keeps_bind (steady_asData value).keeps fun patch => ?_
      exact keeps_bind (h.1 target patch) fun document =>
        (steady_pure (Value.document document)).keeps
  | delete reference, scope, h => by
      simp only [parts, List.forall_mem_cons] at h
      refine keeps_bind (parts_keep reference scope h.2) fun value => ?_
      refine keeps_bind (steady_asReference value).keeps fun target => ?_
      exact keeps_bind (h.1 target) fun document =>
        (steady_pure (Value.document document)).keeps
  | createCollection definition, scope, h =>
      keeps_bind (h _ List.mem_cons_self) fun document =>
        (steady_pure (Value.document document)).keeps
  | createIndex definition, scope, h =>
      keeps_bind (h _ List.mem_cons_self) fun document =>
        (steady_pure (Value.document document)).keeps
  | batch statements, scope, h => by
      simp only [parts, List.forall_mem_cons] at h
      exact partsOfBatch_keep statements .null scope h.2

theorem partsOfFunction_keep :
    forall (function : Expr) (argument : Value) (scope : Scope),
      (forall part, part ∈ function.parts -> part.WriteKeeps clock P) ->
        Keeps P (apply clock function argument scope)
  | function, argument, scope, h => by
      cases function with
      | lambda parameters body =>
          simp only [parts, List.forall_mem_cons] at h
          exact keeps_bind (steady_bindParameters parameters argument scope).keeps
            fun extended => parts_keep body extended h.2
      | _ =>
          exact (steady_fail .notALambda).keeps

theorem partsOfSet_keep :
    forall (set : Expr) (scope : Scope),
      (forall part, part ∈ set.parts -> part.WriteKeeps clock P) ->
        Keeps P (evaluateSet clock set scope)
  | set, scope, h => by
      cases set with
      | documents home =>
          simp only [parts, List.forall_mem_cons] at h
          refine keeps_bind (parts_keep home scope h.2) fun value => ?_
          refine keeps_bind (steady_asCollection value).keeps fun name => ?_
          exact keeps_bind steady_getThe.keeps fun store => (steady_demand _ _).keeps
      | matching indexed terms =>
          simp only [parts, List.forall_mem_cons, List.forall_mem_append] at h
          refine keeps_bind (parts_keep indexed scope h.2.1) fun value => ?_
          refine keeps_bind (steady_asIndex value).keeps fun name => ?_
          refine keeps_bind (parts_keep terms scope h.2.2) fun wanted => ?_
          exact keeps_bind steady_getThe.keeps fun store => (steady_demand _ _).keeps
      | _ =>
          exact (steady_fail _).keeps

theorem partsOfAll_keep :
    forall (items : List Expr) (scope : Scope),
      (forall part, part ∈ partsOfAll items -> part.WriteKeeps clock P) ->
        Keeps P (evaluateAll clock items scope)
  | [], _, _ => (steady_pure []).keeps
  | expr :: rest, scope, h => by
      rw [partsOfAll, List.forall_mem_append] at h
      exact keeps_bind (parts_keep expr scope h.1) fun value =>
        keeps_bind (partsOfAll_keep rest scope h.2) fun values =>
          (steady_pure (value :: values)).keeps

theorem partsOfEntries_keep :
    forall (entries : List (String × Expr)) (written : Document) (scope : Scope),
      (forall part, part ∈ partsOfEntries entries -> part.WriteKeeps clock P) ->
        Keeps P (evaluateEntries clock entries written scope)
  | [], written, _, _ => (steady_pure written).keeps
  | (key, expr) :: rest, written, scope, h => by
      rw [partsOfEntries, List.forall_mem_append] at h
      exact keeps_bind (parts_keep expr scope h.1) fun value =>
        partsOfEntries_keep rest (Keyed.insert written key value) scope h.2

theorem partsOfBindings_keep :
    forall (bindings : List (String × Expr)) (scope : Scope),
      (forall part, part ∈ partsOfEntries bindings -> part.WriteKeeps clock P) ->
        Keeps P (evaluateBindings clock bindings scope)
  | [], scope, _ => (steady_pure scope).keeps
  | (name, expr) :: rest, scope, h => by
      rw [partsOfEntries, List.forall_mem_append] at h
      exact keeps_bind (parts_keep expr scope h.1) fun value =>
        partsOfBindings_keep rest ((name, value) :: scope) h.2

theorem partsOfBatch_keep :
    forall (statements : List Expr) (last : Value) (scope : Scope),
      (forall part, part ∈ partsOfAll statements -> part.WriteKeeps clock P) ->
        Keeps P (evaluateBatch clock statements last scope)
  | [], last, _, _ => (steady_pure last).keeps
  | expr :: rest, _, scope, h => by
      rw [partsOfAll, List.forall_mem_append] at h
      exact keeps_bind (parts_keep expr scope h.1) fun value =>
        partsOfBatch_keep rest value scope h.2

end

theorem evaluate_keeps (h : Store.KeptByWrites clock P) (expr : Expr)
    (scope : Scope) : Keeps P (expr.evaluate clock scope) :=
  parts_keep expr scope fun part _ => writeKeeps_of_kept h part

/-- An expression without writes leaves the store as it is. -/
theorem ReadsOnly.steady {expr : Expr} (h : expr.ReadsOnly) (scope : Scope) :
    Steady (expr.evaluate clock scope) :=
  steady_iff_keeps.mpr fun _ =>
    parts_keep expr scope fun part hpart =>
      writeKeeps_of_not_isWrite (h part hpart)

end Expr

/-!
# Queries

A query commits what its evaluation leaves or takes everything back, so it keeps
what evaluation keeps.
-/

theorem Store.query_keeps {clock : Clock} {P : Store -> Prop}
    (h : Store.KeptByWrites clock P) (expr : Expr) :
    Action.Keeps P (Store.query clock expr) := by
  intro store hstore
  have hleft := expr.evaluate_keeps h [] store hstore
  cases heval : expr.evaluate clock [] store with
  | ok value left =>
      rw [Store.after_of_ok heval] at hleft
      simpa [Store.after, Store.query, heval] using hleft
  | error error left =>
      simpa [Store.after, Store.query, heval] using hstore

/-- The stores that queries lead to from a store.  Every query runs under a clock
of its own, so nothing is said about the readings of the clock. -/
inductive Store.LeadsTo (start : Store) : Store -> Prop where
  | start : LeadsTo start start
  | query (clock : Clock) (expr : Expr) {store : Store} :
      LeadsTo start store -> LeadsTo start (store.after (Store.query clock expr))

def Store.Reachable (store : Store) : Prop :=
  Store.LeadsTo Store.empty store

theorem Store.LeadsTo.keeps {P : Store -> Prop} {start store : Store}
    (h : forall clock, Store.KeptByWrites clock P)
    (hrun : Store.LeadsTo start store) (hstart : P start) : P store := by
  induction hrun with
  | start =>
      exact hstart
  | query clock expr _ ih =>
      exact Store.query_keeps (h clock) expr _ ih

def Store.afterAll (clock : Clock) (exprs : List Expr) (store : Store) : Store :=
  exprs.foldl (fun store expr => store.after (Store.query clock expr)) store

theorem Store.LeadsTo.afterAll {start store : Store}
    (h : Store.LeadsTo start store) (clock : Clock) (exprs : List Expr) :
    Store.LeadsTo start (store.afterAll clock exprs) := by
  induction exprs generalizing store with
  | nil =>
      exact h
  | cons expr rest ih =>
      exact ih (h.query clock expr)

end DocumentMapper
